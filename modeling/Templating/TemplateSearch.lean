import Templating.ToolSettings

/-!
# Finding templates

The templates at or below a path, in the order of their paths. The settings exclude paths both as they
are found and as they are seen from the starting point.
-/

namespace Templating.TemplateSearch

/-- The extension of template files. -/
def extension : String := "tt"

/-- The components below a starting point; a path elsewhere keeps all of its own. -/
def below (root p : Path) : List Path.Component :=
  if p.isUnder root then p.components.drop root.components.length else p.components

def isExcluded (s : ToolSettings) (root p : Path) : Bool :=
  s.isExcluded p || s.excludePaths.any fun e => e.components.isPrefixOf (below root p)

def find (files : FileTree) (root : Path) (s : ToolSettings) : List Path :=
  let found := (files.filesUnder root).map (·.path)
  (found.filter fun p => p.extension? = some extension ∧ !isExcluded s root p).mergeSort Path.le

end Templating.TemplateSearch
