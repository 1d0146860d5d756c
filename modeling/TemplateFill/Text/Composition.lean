import TemplateFill.Text.CombiningClass

/-!
The composed normal form of texts.

A text is taken apart into letters and marks, the marks behind each letter are put in the order of
their classes, and letters and marks are then put together again where one character stands for
both. Only characters that have no other normal form are put together.
-/

namespace TemplateFill.Text

/-! ### Wholes and parts -/

/-- For each mark, the characters that it is put together with, each followed by the whole. -/
def wholesByMark : List (Nat × String) :=
  [(0x300, "aàeèiìnǹoòuùwẁyỳâầêềôồüǜăằēḕōṑơờưừαὰεὲηὴιὶοὸυὺωὼϊῒϋῢеѐиѝἀἂἁἃἐἒἑἓἠἢἡἣἰἲἱἳὀὂὁὃὐὒὑὓ"),
   (0x300, "ὠὢὡὣ"),
   (0x301, "aácćeégǵiíkḱlĺmḿnńoópṕrŕsśuúwẃyýzźâấåǻæǽçḉêếïḯôốõṍøǿüǘăắēḗōṓũṹơớưứαάεέηήιίοόυύωώ"),
   (0x301, "ϊΐϋΰгѓкќἀἄἁἅἐἔἑἕἠἤἡἥἰἴἱἵὀὄὁὅὐὔὑὕὠὤὡὥ"),
   (0x302, "aâcĉeêgĝhĥiîjĵoôsŝuûwŵyŷzẑạậẹệọộ"),
   (0x303, "aãeẽiĩnñoõuũvṽyỹâẫêễôỗăẵơỡưữ"),
   (0x304, "aāeēgḡiīoōuūyȳäǟæǣõȭöȫüǖǫǭȧǡȯȱαᾱιῑυῡиӣуӯḷḹṛṝ"),
   (0x306, "aăeĕgğiĭoŏuŭȩḝαᾰιῐυῠаӑеӗжӂийуўạặ"),
   (0x307, "aȧbḃcċdḋeėfḟgġhḣmṁnṅoȯpṗrṙsṡtṫwẇxẋyẏzżśṥšṧṣṩ𐗒𐗉𐗚𐗤"),
   (0x308, "aäeëhḧiïoötẗuüwẅxẍyÿõṏūṻιϊυϋаӓеёжӝзӟиӥоӧуӱчӵыӹэӭіїәӛөӫ"),
   (0x309, "aảeẻiỉoỏuủyỷâẩêểôổăẳơởưử"),
   (0x30a, "aåuůwẘyẙ"),
   (0x30b, "oőuűуӳ"),
   (0x30c, "aǎcčdďeěgǧhȟiǐjǰkǩlľnňoǒrřsštťuǔzžüǚʒǯ"),
   (0x30f, "aȁeȅiȉoȍrȑuȕѵѷ"),
   (0x311, "aȃeȇiȋoȏrȓuȗ"),
   (0x313, "αἀεἐηἠιἰοὀρῤυὐωὠ"),
   (0x314, "αἁεἑηἡιἱοὁρῥυὑωὡ"),
   (0x31b, "oơuư"),
   (0x323, "aạbḅdḍeẹhḥiịkḳlḷmṃnṇoọrṛsṣtṭuụvṿwẉyỵzẓơợưự"),
   (0x324, "uṳ"),
   (0x325, "aḁ"),
   (0x326, "sștț"),
   (0x327, "cçdḑeȩgģhḩkķlļnņrŗsştţ"),
   (0x328, "aąeęiįoǫuų"),
   (0x32d, "dḓeḙlḽnṋtṱuṷ"),
   (0x32e, "hḫ"),
   (0x330, "eḛiḭuṵ"),
   (0x331, "bḇdḏhẖkḵlḻnṉrṟtṯzẕ"),
   (0x338, "<≮=≠>≯←↚→↛↔↮⇐⇍⇒⇏⇔⇎∃∄∈∉∋∌∣∤∥∦∼≁≃≄≅≇≈≉≍≭≡≢≤≰≥≱≲≴≳≵≶≸≷≹≺⊀≻⊁≼⋠≽⋡⊂⊄⊃⊅⊆⊈⊇⊉⊑⋢⊒⋣⊢⊬⊨⊭⊩⊮⊫⊯"),
   (0x338, "⊲⋪⊳⋫⊴⋬⊵⋭"),
   (0x342, "αᾶηῆιῖυῦωῶϊῗϋῧἀἆἁἇἠἦἡἧἰἶἱἷὐὖὑὗὠὦὡὧ"),
   (0x653, "\u0627\u0622"),
   (0x654, "\u0627\u0623\u0648\u0624\u064a\u0626\u06c1\u06c2\u06d2\u06d3\u06d5\u06c0"),
   (0x655, "\u0627\u0625"),
   (0x93c, "नऩरऱळऴ"),
   (0x9be, "\u09c7\u09cb"),
   (0x9d7, "\u09c7\u09cc"),
   (0xb3e, "\u0b47\u0b4b"),
   (0xb56, "\u0b47\u0b48"),
   (0xb57, "\u0b47\u0b4c"),
   (0xbbe, "\u0bc6\u0bca\u0bc7\u0bcb"),
   (0xbd7, "ஒஔ\u0bc6\u0bcc"),
   (0xc56, "\u0c46\u0c48"),
   (0xcc2, "\u0cc6\u0cca"),
   (0xcd5, "\u0cbf\u0cc0\u0cc6\u0cc7\u0cca\u0ccb"),
   (0xcd6, "\u0cc6\u0cc8"),
   (0xd3e, "\u0d46\u0d4a\u0d47\u0d4b"),
   (0xd57, "\u0d46\u0d4c"),
   (0xdca, "\u0dd9\u0dda\u0ddc\u0ddd"),
   (0xdcf, "\u0dd9\u0ddc"),
   (0xddf, "\u0dd9\u0dde"),
   (0x102e, "ဥဦ"),
   (0x1b35, "ᬅᬆᬇᬈᬉᬊᬋᬌᬍᬎᬑᬒ\u1b3a\u1b3b\u1b3c\u1b3d\u1b3e\u1b40\u1b3f\u1b41\u1b42\u1b43"),
   (0x3099, "うゔかがきぎくぐけげこごさざしじすずせぜそぞただちぢつづてでとどはばひびふぶへべほぼゝゞウヴカガキギクグケゲコゴサザシジスズセゼソゾタダチヂツヅテデトドハバヒビ"),
   (0x3099, "フブヘベホボワヷヰヸヱヹヲヺヽヾ"),
   (0x309a, "はぱひぴふぷへぺほぽハパヒピフプヘペホポ"),
   (0x110ba, "𑂙𑂚𑂛𑂜𑂥𑂫"),
   (0x11127, "𑄱𑄮𑄲𑄯"),
   (0x1133e, "𑍇𑍋"),
   (0x11357, "𑍇𑍌"),
   (0x113b8, "𑏅𑎸"),
   (0x113bb, "𑎄𑎅"),
   (0x113c2, "𑎋𑎎𑏅𑏂"),
   (0x113c9, "𑎂𑎃𑎐𑎑𑏅𑏉"),
   (0x114b0, "𑒹𑒼"),
   (0x114ba, "𑒹𑒻"),
   (0x114bd, "𑒹𑒾"),
   (0x115af, "𑖸𑖺𑖹𑖻"),
   (0x11930, "𑤵𑤸"),
   (0x1611e, "𖄡𖄞"),
   (0x1611f, "𖄦𖄡𖄦𖄢𖄧𖄩𖄤"),
   (0x16120, "𖄨𖄡𖄨"),
   (0x16129, "𖄡𖄩"),
   (0x16d67, "𖵣𖵪𖵨𖵩𖵪")]

structure Whole where
  whole : Char
  base : Char
  mark : Char

def wholesWith (mark : Char) : List Char → List Whole
  | base :: whole :: rest => ⟨whole, base, mark⟩ :: wholesWith mark rest
  | _ => []

def wholes : List Whole :=
  wholesByMark.flatMap fun entry => wholesWith (Char.ofNat entry.1) entry.2.toList

/-! ### Syllables -/

def firstSyllable : Nat := 0xac00

def syllables : Nat := 11172

def syllablesOfLead : Nat := 588

/-- The number of syllables with the same lead and vowel; the first of them has no trail. -/
def syllablesOfVowel : Nat := 28

def syllable? (c : Char) : Option Nat :=
  if firstSyllable ≤ c.toNat && c.toNat < firstSyllable + syllables then
    some (c.toNat - firstSyllable)
  else none

def syllableParts (number : Nat) : List Char :=
  let lead := Char.ofNat (0x1100 + number / syllablesOfLead)
  let vowel := Char.ofNat (0x1161 + number % syllablesOfLead / syllablesOfVowel)
  let trail := number % syllablesOfVowel
  if trail = 0 then [lead, vowel] else [lead, vowel, Char.ofNat (0x11a7 + trail)]

def syllableOfVowel? (lead vowel : Nat) : Option Char :=
  if 0x1100 ≤ lead && lead < 0x1113 && 0x1161 ≤ vowel && vowel < 0x1176 then
    some (Char.ofNat (firstSyllable + (lead - 0x1100) * syllablesOfLead
      + (vowel - 0x1161) * syllablesOfVowel))
  else none

def syllableOfTrail? (before : Char) (trail : Nat) : Option Char :=
  match syllable? before with
  | some number =>
      if number % syllablesOfVowel = 0 && 0x11a8 ≤ trail && trail < 0x11c3 then
        some (Char.ofNat (before.toNat + (trail - 0x11a7)))
      else none
  | none => none

/-! ### Taking apart -/

def partsWithin : Nat → Char → List Char
  | 0, c => [c]
  | more + 1, c =>
      match wholes.find? fun entry => entry.whole == c with
      | some entry => partsWithin more entry.base ++ [entry.mark]
      | none => [c]

/-- The parts of a character. No whole has more than three marks. -/
def parts (c : Char) : List Char :=
  if c.toNat < 0xc0 then [c]
  else
    match syllable? c with
    | some number => syllableParts number
    | none => partsWithin 3 c

/-! ### Order of marks -/

def insertMark (c : Char) : List Char → List Char
  | [] => [c]
  | next :: rest =>
      if 0 < combiningClass next && combiningClass next < combiningClass c then
        next :: insertMark c rest
      else c :: next :: rest

def orderMarks (text : List Char) : List Char := text.foldr insertMark []

/-! ### Putting together -/

def whole? (base mark : Char) : Option Char :=
  match syllableOfVowel? base.toNat mark.toNat with
  | some syllable => some syllable
  | none =>
      match syllableOfTrail? base mark.toNat with
      | some syllable => some syllable
      | none => (wholes.find? fun entry => entry.base == base && entry.mark == mark).map Whole.whole

/-- A mark reaches its letter past marks of lower classes. -/
def reaches (marks : List Char) (c : Char) : Bool :=
  match marks with
  | [] => true
  | last :: _ => combiningClass last < combiningClass c

/-- Puts a letter together with what follows. `marks` are those it has not joined, last first. -/
def composeFrom (letter : Char) (marks : List Char) : List Char → List Char
  | [] => letter :: marks.reverse
  | c :: rest =>
      match if reaches marks c then whole? letter c else none with
      | some whole => composeFrom whole marks rest
      | none =>
          if combiningClass c = 0 then letter :: marks.reverse ++ composeFrom c [] rest
          else composeFrom letter (c :: marks) rest

def compose : List Char → List Char
  | [] => []
  | c :: rest => if combiningClass c = 0 then composeFrom c [] rest else c :: compose rest

def composed (text : List Char) : List Char := compose (orderMarks (text.flatMap parts))

end TemplateFill.Text
