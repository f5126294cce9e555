/-!
# Characters

Unicode defines its character properties by tables of code point ranges. A property with a long
table is kept as the list of its ranges, smallest first, and asked for with `inRanges`.

White space is the property White_Space. A text is blank when it has no other character; trimming
takes the white space off its ends.
-/

namespace Cochange.Text

/-- Whether the code point of a character lies in one of the ranges, both ends included. -/
def inRanges (ranges : List (Nat × Nat)) (c : Char) : Bool :=
  ranges.any fun r => r.1 ≤ c.toNat && c.toNat ≤ r.2

/-! ## White space -/

/-- Whether a character has the Unicode property White_Space. -/
def isSpace (c : Char) : Bool :=
  let n := c.toNat
  (0x9 ≤ n && n ≤ 0xd) || n = 0x20 || n = 0x85 || n = 0xa0 || n = 0x1680 ||
    (0x2000 ≤ n && n ≤ 0x200a) || n = 0x2028 || n = 0x2029 || n = 0x202f || n = 0x205f ||
    n = 0x3000

/-- Whether a text has nothing but white space. -/
def isBlank (cs : List Char) : Bool :=
  cs.all isSpace

/-- The text without the white space it begins with. -/
def trimStart (cs : List Char) : List Char :=
  cs.dropWhile isSpace

/-- The text without the white space at its ends. -/
def trim (cs : List Char) : List Char :=
  (trimStart (trimStart cs).reverse).reverse

/-- A text is blank exactly when every character of it is white space. -/
theorem isBlank_iff {cs : List Char} : isBlank cs = true ↔ ∀ c ∈ cs, isSpace c = true := by
  simp [isBlank]

@[simp] theorem isBlank_nil : isBlank [] = true := rfl

/-- A text made of two parts is blank exactly when both are. -/
@[simp] theorem isBlank_append (as bs : List Char) :
    isBlank (as ++ bs) = (isBlank as && isBlank bs) := by
  simp [isBlank]

/-! ## Hexadecimal digits -/

/-- The value of a hexadecimal digit. -/
def hexDigit? (c : Char) : Option Nat :=
  if '0' ≤ c ∧ c ≤ '9' then some (c.toNat - '0'.toNat)
  else if 'a' ≤ c ∧ c ≤ 'f' then some (c.toNat - 'a'.toNat + 10)
  else if 'A' ≤ c ∧ c ≤ 'F' then some (c.toNat - 'A'.toNat + 10)
  else none

/-- The number that a run of hexadecimal digits stands for. -/
def hexValue? (ds : List Char) : Option Nat :=
  ds.foldl (fun n d => do return 16 * (← n) + (← hexDigit? d)) (some 0)

end Cochange.Text
