import ComTypes.Graph.Basic
import ComTypes.Naming.Distinct
import ComTypes.Naming.Iids
import ComTypes.Text.Replace

/-!
# Display names

The names under which declarations appear in rendered source. A declaration shows its own name, or
else the known name of its IID, or else its identity; names that collide are numbered in graph
order, so that later nodes never change the names of earlier ones.
-/

namespace ComTypes.Naming

/-- Undo the mangling of a runtime class name: with `__x_` in front, every `_C` is a separator. -/
def demangle (name separator : String) : String :=
  match name.toList with
  | '_' :: '_' :: 'x' :: '_' :: rest =>
    String.ofList (Text.replacePair '_' 'C' separator.toList rest)
  | _ => name

def ofGuid (guid : Guid) : String :=
  "intf_" ++ String.ofList (guid.registry.toList.map fun c => if c = '-' then '_' else c)

/-- The name a declaration would like to have. -/
def baseName (iids : Option IidNames) (separator : String) (id : TypeId) (node : Node) : String :=
  if node.name ≠ "" then demangle node.name separator
  else match node.guid? with
    | some guid => (iids.bind (·.get? guid)).getD (ofGuid guid)
    | none => s!"__MIDL_type_{id}"

/-- The display names of nodes from position `id` on. `taken` are the names given out before. -/
def displayFrom (iids : Option IidNames) (separator : String) :
    (id : TypeId) → (taken : List String) → List Node → List String
  | _, _, [] => []
  | id, taken, node :: rest =>
    if node.isDeclaration then
      let name := fresh taken (baseName iids separator id node) 1
      name :: displayFrom iids separator (id + 1) (name :: taken) rest
    else
      "" :: displayFrom iids separator (id + 1) taken rest

/-- The display name of every node; nodes that are no declarations in use have none. -/
def display (g : Graph) (iids : Option IidNames) (separator : String) : Array String :=
  (displayFrom iids separator 0 [] g.nodes.toList).toArray

end ComTypes.Naming
