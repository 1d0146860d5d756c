import TemplateFill.Text.Composition
import TemplateFill.Url.Domain.Direction
import TemplateFill.Url.Domain.Joining
import TemplateFill.Url.Domain.Mapping
import TemplateFill.Url.Percent
import TemplateFill.Url.Punycode

/-!
Domains written in ASCII.

The characters of a domain are prepared and composed, and dots then separate its labels. A label
that is already written in ASCII with the mark for it is read back and has to be in normal form. The
labels are checked, and those outside ASCII are written in ASCII.
-/

namespace TemplateFill.Url.Domain

/-! ### Labels -/

def isForbidden (c : Char) : Bool :=
  isControl c
    || [' ', '#', '%', '/', ':', '<', '>', '?', '@', '[', '\\', ']', '^', '|'].contains c

def lengthLimit : Nat := 1000

def codeLimit : Nat := 2000

def isNormal (label : List Char) : Bool :=
  label.all (fun c => isKept c && !isForbidden c) && Text.composed label == label

def readBack? (code : List Char) : Option (List Char) :=
  if code.getLast?.all (· == '-') || codeLimit < code.length then none
  else (Punycode.decode? code).filter isNormal

def label? (text : List Char) : Option (List Char) :=
  match text with
  | 'x' :: 'n' :: '-' :: '-' :: code => readBack? code
  | _ => some text

def isLabel (label : List Char) : Bool :=
  !label.head?.any Text.isMark && joinersPlaced [] label
    && (label.all (fun c => c.toNat < 0x80) || label.length ≤ lengthLimit)

/-! ### Domains -/

def normalText? (domain : List Char) : Option (List Char) :=
  (domain.mapM prepared?).map fun forms => Text.composed forms.flatten

def labels? (domain : List Char) : Option (List (List Char)) := do
  let text ← normalText? domain
  if text.any isForbidden then none
  else
    let labels ← (Text.splitWhere (· == '.') text).mapM label?
    if !labels.all isLabel then none
    else if labels.any (fun label => label.any turnsAround) && !labels.all keepsDirection then none
    else return labels

def toAscii? (domain : List Char) : Option (List Char) :=
  (labels? domain).map fun labels =>
    List.intercalate ['.'] (labels.map Punycode.labelToAscii)

end TemplateFill.Url.Domain
