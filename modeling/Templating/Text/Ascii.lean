/-!
# ASCII case

Names are compared without regard to the case of ASCII letters; all other characters stand for
themselves.
-/

namespace Templating.Text

def lower (s : String) : String :=
  s.map Char.toLower

def sameIgnoringCase (a b : String) : Bool :=
  lower a == lower b

theorem sameIgnoringCase_iff {a b : String} : sameIgnoringCase a b ↔ lower a = lower b := by
  simp [sameIgnoringCase]

end Templating.Text
