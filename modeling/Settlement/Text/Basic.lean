/-!
Texts as rows of UTF-16 units. A character beyond the first plane is a pair of halves. A half may
also stand alone: it is no character, but a text can hold it all the same.
-/
namespace Settlement

structure Text where
  units : List UInt16
  deriving DecidableEq, Repr

namespace Text

def isHigh (unit : UInt16) : Bool := 0xd800 ≤ unit.toNat && unit.toNat < 0xdc00

def isLow (unit : UInt16) : Bool := 0xdc00 ≤ unit.toNat && unit.toNat < 0xe000

/-- The unit of a code point, or its two halves. -/
def unitsOf (point : Nat) : List UInt16 :=
  if point < 0x10000 then [.ofNat point]
  else [.ofNat (0xd800 + (point - 0x10000) / 0x400), .ofNat (0xdc00 + (point - 0x10000) % 0x400)]

def ofString (source : String) : Text := ⟨source.toList.flatMap fun c => unitsOf c.toNat⟩

instance : Coe String Text := ⟨ofString⟩

instance : Inhabited Text := ⟨⟨[]⟩⟩

instance : Append Text := ⟨fun a b => ⟨a.units ++ b.units⟩⟩

def isEmpty (text : Text) : Bool := text.units.isEmpty

/-- The units of each character; a half that stands alone is by itself. -/
def group : List UInt16 → List (List UInt16)
  | [] => []
  | [unit] => [[unit]]
  | high :: low :: rest =>
    if isHigh high && isLow low then [high, low] :: group rest else [high] :: group (low :: rest)

/-- The code point of the units of one character. -/
def pointOf : List UInt16 → Nat
  | [high, low] => 0x10000 + (high.toNat - 0xd800) * 0x400 + (low.toNat - 0xdc00)
  | unit :: _ => unit.toNat
  | [] => 0

/-- The code points of a text; those of halves that stand alone are no characters. -/
def points (text : Text) : List Nat := (group text.units).map pointOf

/-- The characters and lone halves of a text, each as a text of its own. -/
def characters (text : Text) : List Text := (group text.units).map mk

/-- The character of a code point; the replacement character where there is none. -/
def charOf (point : Nat) : Char :=
  if point < 0xd800 ∨ (0xe000 ≤ point ∧ point < 0x110000) then Char.ofNat point else '\ufffd'

/-- The characters of a text; halves that stand alone are read as the replacement character. -/
def chars (text : Text) : List Char := text.points.map charOf

def string (text : Text) : String := String.ofList text.chars

private theorem toNat_valid (c : Char) :
    c.toNat < 0xd800 ∨ (0xe000 ≤ c.toNat ∧ c.toNat < 0x110000) := by
  have valid := c.valid
  simp only [UInt32.isValidChar, Nat.isValidChar] at valid
  unfold Char.toNat
  omega

theorem charOf_toNat (c : Char) : charOf c.toNat = c := by
  rw [charOf, if_pos (toNat_valid c), Char.ofNat_toNat]

theorem toNat_unit {number : Nat} (small : number < 0x10000) :
    (UInt16.ofNat number).toNat = number := by
  rw [UInt16.toNat_ofNat']
  exact Nat.mod_eq_of_lt small

private theorem pointOf_single (unit : UInt16) : pointOf [unit] = unit.toNat := rfl

private theorem pointOf_pair (high low : UInt16) :
    pointOf [high, low] = 0x10000 + (high.toNat - 0xd800) * 0x400 + (low.toNat - 0xdc00) := rfl

private theorem group_cons_of_not_isHigh {unit : UInt16} (plain : isHigh unit = false)
    (rest : List UInt16) : group (unit :: rest) = [unit] :: group rest := by
  cases rest <;> simp [group, plain]

/-- The units of a code point that is no half are read as that code point, whatever follows. -/
private theorem group_unitsOf {point : Nat}
    (valid : point < 0xd800 ∨ (0xe000 ≤ point ∧ point < 0x110000)) (rest : List UInt16) :
    (group (unitsOf point ++ rest)).map pointOf = point :: (group rest).map pointOf := by
  by_cases small : point < 0x10000
  · have single := toNat_unit small
    have plain : isHigh (.ofNat point) = false := by
      rw [isHigh, single, Bool.and_eq_false_iff, decide_eq_false_iff_not, decide_eq_false_iff_not]
      omega
    rw [unitsOf, if_pos small, List.singleton_append, group_cons_of_not_isHigh plain,
      List.map_cons, pointOf_single, single]
  · have high := @toNat_unit (0xd800 + (point - 0x10000) / 0x400) (by omega)
    have low := @toNat_unit (0xdc00 + (point - 0x10000) % 0x400) (by omega)
    have isPair : (isHigh (.ofNat (0xd800 + (point - 0x10000) / 0x400)) &&
        isLow (.ofNat (0xdc00 + (point - 0x10000) % 0x400))) = true := by
      rw [isHigh, isLow, high, low, Bool.and_eq_true, Bool.and_eq_true, Bool.and_eq_true,
        decide_eq_true_eq, decide_eq_true_eq, decide_eq_true_eq, decide_eq_true_eq]
      omega
    have value : 0x10000 + (0xd800 + (point - 0x10000) / 0x400 - 0xd800) * 0x400 +
        (0xdc00 + (point - 0x10000) % 0x400 - 0xdc00) = point := by omega
    rw [unitsOf, if_neg small, List.cons_append, List.singleton_append, group, if_pos isPair,
      List.map_cons, pointOf_pair, high, low, value]

/-- The code points of a string's text are those of its characters. -/
theorem points_ofString (source : String) :
    (ofString source).points = source.toList.map Char.toNat := by
  rw [points, ofString]
  induction source.toList with
  | nil => rfl
  | cons c rest step => rw [List.flatMap_cons, group_unitsOf (toNat_valid c), step, List.map_cons]

theorem chars_ofString (source : String) : (ofString source).chars = source.toList := by
  have same : charOf ∘ Char.toNat = id := funext charOf_toNat
  rw [chars, points_ofString, List.map_map, same, List.map_id]

/-- A string is read back from its text. -/
theorem string_ofString (source : String) : (ofString source).string = source := by
  rw [string, chars_ofString, String.ofList_toList]

end Text

end Settlement
