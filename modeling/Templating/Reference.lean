import Templating.Path
import Templating.Text.Blank

/-!
# References

The libraries a unit is linked against: `name=path`, a path whose file name tells the name, or a bare
name.
-/

namespace Templating

structure Reference where
  name : String
  path : Option Path
deriving DecidableEq, Repr

namespace Reference

/-- The name of a library file: its stem without `lib` in front and without what follows a hyphen. -/
def nameOf (p : Path) : String :=
  let stem := p.stem?.getD ""
  let bare := (Text.dropPrefix? "lib" stem).getD stem
  match Text.cut bare '-' with
  | some (name, _) => name
  | none => bare

def ofText (text : String) : Reference :=
  match Text.cut text '=' with
  | some (name, path) => ⟨Text.trim name, some ⟨Text.trim path⟩⟩
  | none =>
    let p : Path := ⟨text⟩
    if 1 < p.components.length ∨ p.extension?.isSome then ⟨nameOf p, some p⟩ else ⟨text, none⟩

end Reference

end Templating
