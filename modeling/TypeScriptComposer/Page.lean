import TypeScriptComposer.Context
import TypeScriptComposer.ImportBlock

/-!
# Pages

A page is a rendered template: its body, and the imports that the body needs.
-/

set_option autoImplicit false

namespace TypeScriptComposer

structure Page where
  body : String
  imports : ImportBlock
  trailingNewline : Bool
  deriving DecidableEq

namespace Page

/-- The imports and the body, with an empty line between them when there are both. -/
def unended (p : Page) : String :=
  let imports := p.imports.text
  imports ++ (if imports.isEmpty || p.body.isEmpty then "" else "\n") ++ p.body

def file (p : Page) : String :=
  let text := p.unended
  if p.trailingNewline && !text.isEmpty && text.toList.getLast? != some '\n' then text ++ "\n"
  else text

end Page

namespace Template

def render (outputs : Outputs) (settings : Settings) (t : Template) : Except Error Page :=
  match (Context.ofSettings settings).prepare outputs t with
  | (.error e, _) => .error e
  | (.ok (), c) =>
    let (body, c) := c.renderIn outputs t 0
    .ok ⟨body, .ofTracker c.tracker settings.quote, settings.trailingNewline⟩

def file (outputs : Outputs) (settings : Settings) (t : Template) : Except Error String :=
  (render outputs settings t).map Page.file

end Template

end TypeScriptComposer
