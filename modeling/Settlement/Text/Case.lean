/-!
Lower case, as far as names made of ASCII letters need it.
-/
namespace Settlement.Text

/-- The ASCII letters and the Kelvin sign are all the characters whose lower case is an ASCII
letter. -/
def lowerChar (c : Char) : Char :=
  if c.toNat = 0x212a then 'k' else c.toLower

def lower (text : String) : String :=
  text.map lowerChar

end Settlement.Text
