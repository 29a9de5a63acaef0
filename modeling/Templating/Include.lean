/-!
# Includes

Where included text comes from. A source names all texts it can ever give, so a chain of includes
that never names a text twice is finite.
-/

namespace Templating

structure Include where
  content : String
  name : String
deriving DecidableEq, Repr

structure IncludeSource where
  load : String → Option Include
  names : List String
  name_mem : ∀ {request : String} {i : Include}, load request = some i → i.name ∈ names

namespace IncludeSource

def empty : IncludeSource where
  load _ := none
  names := []
  name_mem h := by cases h

/-- Texts by request. -/
def ofList (texts : List (String × Include)) : IncludeSource where
  load request := (texts.find? (·.1 == request)).map (·.2)
  names := texts.map (·.2.name)
  name_mem := by
    intro request i h
    obtain ⟨x, hx, rfl⟩ := Option.map_eq_some_iff.1 h
    exact List.mem_map.2 ⟨x, List.mem_of_find?_eq_some hx, rfl⟩

end IncludeSource

end Templating
