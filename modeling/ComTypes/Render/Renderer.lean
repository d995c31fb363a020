import ComTypes.Naming.Display
import ComTypes.Render.Declaration
import ComTypes.Render.Plan

/-!
# Rendering

A renderer holds its settings and the known interface names. It also keeps the formatter that it made
last, uses it again while the dialect and the treatment of comments stay the same, and counts how many
it has made.
-/

namespace ComTypes

structure RenderOptions where
  dialect : Dialect := .idl
  /-- Leave documentation lines out. -/
  hideComments : Bool := false
  /-- Keep only interfaces and the types they reach. -/
  interfacesOnly : Bool := false
  /-- Render incomplete types with placeholders instead of failing. -/
  bestEffort : Bool := false
deriving DecidableEq, Repr, Inhabited

/-- What a dialect and a treatment of comments mean for rendering. -/
structure Formatter where
  dialect : Dialect
  hideComments : Bool
  /-- What stands between the parts of a demangled name. -/
  separator : String
deriving DecidableEq, Repr

def Formatter.make (dialect : Dialect) (hideComments : Bool) : Formatter :=
  { dialect, hideComments, separator := dialect.separator }

/-- The name that an error gives a node: its own, or else its GUID or position. -/
def Graph.describe (g : Graph) (id : TypeId) : String :=
  match (g.node? id).elim "" (·.name), (g.node? id).bind (·.guid?) with
  | "", some guid => guid.registry
  | "", none => s!"type #{id}"
  | name, _ => name

namespace RenderOptions

def select (options : RenderOptions) (g : Graph) (roots : List TypeId) : List TypeId :=
  if options.interfacesOnly then g.interfacesAndReachable roots else roots

/-- The first selected type that is not complete, where that matters. -/
def obstacle? (options : RenderOptions) (g : Graph) (selected : List TypeId) : Option TypeId :=
  if options.bestEffort then none
  else selected.find? fun id => !(g.node? id).any (·.isParsed)

/-- The lines of an item, with an empty line behind a declaration. -/
def itemLines (s : Scope) : Item → List Line
  | .forward id => s.forward id
  | .declare id => (s.graph.node? id).elim [] (s.declaration id ·) ++ [.blank]

/-- Render types in turn, each followed by an empty line, with a given formatter. -/
def renderWith (options : RenderOptions) (formatter : Formatter) (iids : IidNames) (g : Graph)
    (roots : List TypeId) : Except Fault String :=
  let selected := options.select g roots
  match options.obstacle? g selected with
  | some id => .error (.notParsed (g.describe id))
  | none =>
    let scope : Scope :=
      { graph := g
        names := Naming.display g (some iids) formatter.separator
        dialect := formatter.dialect
        hideComments := formatter.hideComments
        bestEffort := options.bestEffort }
    .ok (sourceText ((g.plan selected).flatMap (itemLines scope)))

/-- Render types in turn, each followed by an empty line. -/
def render (options : RenderOptions) (iids : IidNames) (g : Graph) (roots : List TypeId) :
    Except Fault String :=
  options.renderWith (.make options.dialect options.hideComments) iids g roots

end RenderOptions

structure Renderer where
  options : RenderOptions := {}
  iids : IidNames := {}
  /-- The formatter that was made last. -/
  lastFormatter : Option Formatter := none
  /-- How many formatters have been made. -/
  formatChanges : Nat := 0
deriving Inhabited

namespace Renderer

/-- Whether a formatter was made for the current dialect and treatment of comments. -/
def suits (r : Renderer) (formatter : Formatter) : Bool :=
  formatter.dialect = r.options.dialect && formatter.hideComments = r.options.hideComments

/-- The formatter for the current settings: the one at hand, if it suits them, or else a new one that
takes its place. -/
def formatter (r : Renderer) : Formatter × Renderer :=
  match r.lastFormatter.filter r.suits with
  | some known => (known, r)
  | none =>
    let made := Formatter.make r.options.dialect r.options.hideComments
    (made, { r with lastFormatter := some made, formatChanges := r.formatChanges + 1 })

def render (r : Renderer) (g : Graph) (roots : List TypeId) : Except Fault String × Renderer :=
  let (formatter, r) := r.formatter
  (r.options.renderWith formatter r.iids g roots, r)

end Renderer

end ComTypes
