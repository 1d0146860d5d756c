import TemplateFill.Text.Occurrences

/-!
How the path of a collection drives its repetition.

The list of a path is what stands before its last `[*]`, or the whole path if it has none. The
entries counted are those of the list with every earlier `[*]` at its first entry. Binding a path
writes the number of a copy in place of the list's own `[*]`.
-/

namespace TemplateFill

/-- What a collection path says: which path counts the copies, and which list they run over. -/
structure Binding where
  countPath : String
  listIdentifier : String
deriving DecidableEq

namespace Binding

def wildcard : List Char := ['[', '*', ']']

def firstEntry : List Char := ['[', '0', ']']

def entry (position : Nat) : List Char := '[' :: Nat.toDigits 10 position ++ [']']

def driver (path : List Char) : List Char := (Text.throughLast? wildcard path).getD path

def ofPath (path : String) : Binding :=
  let driven := driver path.toList
  let pinned := Text.replaceAll wildcard firstEntry driven
  { countPath := String.ofList (Text.withoutEnd firstEntry pinned ++ wildcard)
    listIdentifier := String.ofList (Text.withoutEnd wildcard driven) }

def appliesTo (binding : Binding) (path : String) : Bool :=
  binding.listIdentifier.toList.isPrefixOf path.toList

def bind (binding : Binding) (path : String) (position : Nat) : String :=
  let list := binding.listIdentifier.toList
  String.ofList (Text.replaceAll (list ++ wildcard) (list ++ entry position) path.toList)

def wildcards : Option String → Nat
  | some path => Text.countOccurrences wildcard path.toList
  | none => 0

end Binding

end TemplateFill
