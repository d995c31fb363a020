import Mathlib.Data.String.Basic
import ComTypes.Run.Pipeline
import ComTypes.Proofs.Dict
import ComTypes.Proofs.Naming.Display
import ComTypes.Proofs.Naming.Positions
import ComTypes.Proofs.Proxy.Visible

/-!
# Names of declarations without a name

The known interface names of a run are written by four sources in turn: the core interfaces, the GUIDs
whose definition changed, the interfaces of the graph and the configuration. A GUID identifies one node of
the graph, also behind an overlay (`Config.guid_unique`), so a declaration without a name finds nothing
from the graph under its own GUID. What is left is the order of precedence `Config.NameFor`: the
configuration, a core interface that did not change, the GUID itself (`nameless_declarations_named`).
-/

namespace ComTypes

variable {config : Config} {view : FileView} {base : String} {graph : Graph} {changed : List Guid}
  {iids : IidNames} {a b : Assembler} {guid : Guid} {id id' : TypeId} {node node' : Node}

/-! ### Tables that are written in turn -/

/-- Of the entries for a key the last one counts, and else what was there before. -/
theorem Table.get?_foldl_insert_last {α β γ : Type} [DecidableEq α] (key : γ → α) (value : γ → β)
    (items : List γ) (t : Table α β) (k : α) :
    (items.foldl (fun t item => t.insert (key item) (value item)) t).get? k =
      ((items.reverse.find? (key · = k)).map value).or (t.get? k) := by
  induction items generalizing t with
  | nil => rfl
  | cons item rest ih =>
    rw [List.foldl_cons, ih, get?_insert, List.reverse_cons, List.find?_append]
    by_cases here : key item = k
    · cases rest.reverse.find? (key · = k) <;> simp [here]
    · cases rest.reverse.find? (key · = k) <;> simp [here, Ne.symm here]

/-- The names of the given IIDs are gone, and the others stay. -/
theorem IidNames.get?_invalidate (names : IidNames) (gone : List Guid) (guid : Guid) :
    (names.invalidate gone).get? guid = if guid ∈ gone then none else names.get? guid := by
  induction gone generalizing names with
  | nil => rfl
  | cons first rest ih =>
    rw [invalidate, List.foldl_cons]
    refine (ih (names.erase first)).trans ?_
    rw [Table.get?_erase]
    by_cases later : guid ∈ rest <;> by_cases here : guid = first <;> simp [later, here]

theorem IidNames.get?_wellKnown (guid : Guid) :
    wellKnown.get? guid = (core.find? (·.1 = guid)).map (·.2) := by
  have nodup : (core.map (·.1)).Nodup := by decide +kernel
  have found := Table.get?_foldl_insert (t := .empty) (·.1) (·.2) core nodup guid
  rwa [Table.get?_empty, Option.or_none] at found

/-! ### Attempts that end well -/

namespace Attempt

variable {α β : Type}

/-- Two attempts in a row succeed exactly if both do. -/
theorem bind_eq_ok {first : Attempt α} {next : α → Attempt β} {value : β} :
    first >>= next = .ok value ↔ ∃ middle, first = .ok middle ∧ next middle = .ok value := by
  cases first with
  | error failure =>
    constructor
    · intro done
      cases done
    · rintro ⟨_, done, _⟩
      cases done
  | ok middle =>
    constructor
    · exact fun done => ⟨middle, rfl, done⟩
    · rintro ⟨_, same, done⟩
      cases same
      exact done

/-- What every step keeps holds after all of them. -/
theorem foldlM_keeps {step : β → α → Attempt β} {keeps : β → Prop}
    (each : ∀ {b item b'}, keeps b → step b item = .ok b' → keeps b') {items : List α} {b b' : β}
    (start : keeps b) (done : items.foldlM step b = .ok b') : keeps b' := by
  induction items generalizing b with
  | nil =>
    cases done
    exact start
  | cons item rest ih =>
    rw [List.foldlM_cons] at done
    obtain ⟨next, first, done⟩ := bind_eq_ok.mp done
    exact ih (each start first) done

end Attempt

namespace Config

open Attempt

/-! ### The graph of a configuration -/

theorem assemble_eq_ok {α : Type} {context : String} {step : Assemble α}
    (done : assemble context step a = .ok b) : left (step a) = b := by
  unfold assemble at done
  cases run : step a with
  | ok value last =>
    rw [run] at done
    exact Except.ok.inj done
  | error fault last =>
    rw [run] at done
    cases done

/-- A library file is added by a call. -/
theorem reachable_addLibrary {entry : String} (run : Reachable (fun _ _ => True) a)
    (added : addLibrary view base a entry = .ok b) : Reachable (fun _ _ => True) b := by
  obtain ⟨_, _, added⟩ := bind_eq_ok.mp added
  obtain ⟨library, _, added⟩ := bind_eq_ok.mp added
  rw [← assemble_eq_ok added]
  exact .step (.addLibrary library) run trivial

/-- A proxy file is added by a call. -/
theorem reachable_addProxy {entry : ProxyEntry} (run : Reachable (fun _ _ => True) a)
    (added : addProxy view base a entry = .ok b) : Reachable (fun _ _ => True) b := by
  obtain ⟨iid, _, added⟩ := bind_eq_ok.mp added
  obtain ⟨bytes, _, added⟩ := bind_eq_ok.mp added
  rw [← assemble_eq_ok added]
  exact .step (.addProxy bytes iid entry.name .none) run trivial

/-- An overlay changes names only. -/
theorem overlaid_bare {graph graph' : Graph} {entry : Option String}
    (done : overlaid view base graph entry = .ok graph') : graph'.bare = graph.bare := by
  cases entry with
  | none =>
    cases done
    rfl
  | some entry =>
    obtain ⟨document, _, done⟩ := bind_eq_ok.mp done
    cases parsed : Overlay.parse? document with
    | none =>
      rw [parsed] at done
      cases done
    | some overlay =>
      rw [parsed] at done
      cases done
      rw [Overlay.apply_eq_writes, Overlay.bare_writes]

/-- The graph is that of a run of the assembler, up to names. -/
theorem exists_run (built : config.graph view base = .ok (graph, changed)) :
    ∃ a, Reachable (fun _ _ => True) a ∧ a.changed = changed ∧ graph.bare = a.graph.bare := by
  unfold Config.graph at built
  split at built
  · cases built
  · obtain ⟨first, libraries, built⟩ := bind_eq_ok.mp built
    obtain ⟨last, proxies, built⟩ := bind_eq_ok.mp built
    obtain ⟨named, overlay, built⟩ := bind_eq_ok.mp built
    cases built
    have run := foldlM_keeps reachable_addLibrary (.start config.strict) libraries
    exact ⟨last, foldlM_keeps reachable_addProxy run proxies, rfl, overlaid_bare overlay⟩

/-- No two nodes of the graph have the same GUID. -/
theorem guid_unique (built : config.graph view base = .ok (graph, changed))
    (found : graph.node? id = some node) (found' : graph.node? id' = some node')
    (own : node.guid? = some guid) (own' : node'.guid? = some guid) : id' = id := by
  obtain ⟨a, run, _, bare⟩ := exists_run built
  have original : ∀ {id node}, graph.node? id = some node → ∃ before,
      a.graph.node? id = some before ∧ before.identity = node.identity := by
    intro id node found
    have kept : (a.graph.node? id).map Node.bare = some node.bare := by
      rw [← Graph.node?_bare, ← bare, Graph.node?_bare, found, Option.map_some]
    obtain ⟨before, here, same⟩ := Option.map_eq_some_iff.mp kept
    have identity : before.bare.identity = node.bare.identity := congrArg Node.identity same
    exact ⟨before, here, identity⟩
  have identity : ∀ {node : Node}, node.guid? = some guid → node.identity = .guid guid := by
    intro node own
    unfold Node.guid? at own
    cases shape : node.identity <;> simp_all [Identity.guid?]
  obtain ⟨before, here, same⟩ := original found
  obtain ⟨before', here', same'⟩ := original found'
  refine run.sound.graph.identity_unique here' here ?_
  rw [same, same', identity own, identity own']

/-! ### Known names -/

/-- The name comes from a named interface of the graph. -/
theorem exists_of_mem_interfaceNames {name : String} (member : (guid, name) ∈ interfaceNames graph) :
    ∃ id node, graph.node? id = some node ∧ node.guid? = some guid ∧ node.name = name ∧ name ≠ "" := by
  obtain ⟨node, listed, chosen⟩ := List.mem_filterMap.mp member
  obtain ⟨id, found⟩ := List.getElem?_of_mem listed
  rw [Array.getElem?_toList] at found
  cases body : node.body <;> simp only [body] at chosen
  case interface definition =>
    cases own : node.guid? with
    | none => simp [own] at chosen
    | some held =>
      by_cases nameless : node.name = ""
      · simp [own, nameless] at chosen
      · simp only [own, nameless, if_false] at chosen
        obtain ⟨rfl, rfl⟩ : held = guid ∧ node.name = name := by simpa using chosen
        exact ⟨id, node, found, own, rfl, nameless⟩
  all_goals cases chosen

/-- The entries of the configuration are written in the order of their keys. -/
theorem get?_configured {entries : List (String × String)} {names : IidNames}
    (done : entries.foldlM (fun names (text, name) => do
      let iid ← (Config.guid text).context "reading [iid_names]"
      return names.insert iid name) names = .ok iids) (guid : Guid) :
    iids.get? guid =
      ((entries.reverse.find? fun entry => Guid.parse entry.1 = .ok guid).map (·.2)).or
        (names.get? guid) := by
  induction entries generalizing names with
  | nil =>
    cases done
    rfl
  | cons entry rest ih =>
    rw [List.foldlM_cons] at done
    obtain ⟨next, written, done⟩ := bind_eq_ok.mp done
    obtain ⟨iid, read, written⟩ := bind_eq_ok.mp written
    cases written
    have parsed : Guid.parse entry.1 = .ok iid := by
      unfold Config.guid at read
      cases parsed : Guid.parse entry.1 <;> simp_all [Attempt.context]
    rw [ih done, Table.get?_insert, List.reverse_cons, List.find?_append]
    by_cases here : iid = guid
    · cases rest.reverse.find? fun entry => Guid.parse entry.1 = .ok guid <;> simp [parsed, here]
    · cases rest.reverse.find? fun entry => Guid.parse entry.1 = .ok guid <;>
        simp [parsed, here, Ne.symm here]

/-- Under the GUID of a declaration without a name, the graph lends no name. -/
theorem get?_knownNames (built : config.graph view base = .ok (graph, changed))
    (known : config.knownNames graph changed = .ok iids) (found : graph.node? id = some node)
    (own : node.guid? = some guid) (nameless : node.name = "") :
    iids.get? guid =
      ((config.iidNames.entries.reverse.find? fun entry => Guid.parse entry.1 = .ok guid).map
        (·.2)).or (if guid ∈ changed then none else (IidNames.core.find? (·.1 = guid)).map (·.2)) := by
  have absent : (interfaceNames graph).reverse.find? (·.1 = guid) = none := by
    rw [List.find?_eq_none]
    rintro ⟨key, name⟩ member same
    obtain rfl : key = guid := by simpa using same
    obtain ⟨id', node', found', own', named, nonempty⟩ :=
      exists_of_mem_interfaceNames (List.mem_reverse.mp member)
    obtain rfl := guid_unique built found found' own own'
    rw [found] at found'
    cases found'
    exact nonempty (named.symm.trans nameless)
  rw [get?_configured known guid, ← IidNames.get?_wellKnown, ← IidNames.get?_invalidate]
  congr 1
  refine (Table.get?_foldl_insert_last (·.1) (·.2) (interfaceNames graph) _ guid).trans ?_
  rw [absent, Option.map_none, Option.none_or]

/-- The configuration has a name under this key, which reads as the GUID. -/
def Lists (config : Config) (guid : Guid) (key name : String) : Prop :=
  (key, name) ∈ config.iidNames.entries ∧ Guid.parse key = .ok guid

/-- The name that a configuration has for a declaration without one: that of its greatest key that reads
as the GUID, or else that of a core interface whose definition did not change, or else the GUID itself. -/
inductive NameFor (config : Config) (changed : List Guid) (guid : Guid) : String → Prop
  | configured {key name : String} : config.Lists guid key name →
      (∀ key' name', config.Lists guid key' name' → key' ≤ key) → NameFor config changed guid name
  | core {name : String} : (∀ key name, ¬ config.Lists guid key name) →
      (guid, name) ∈ IidNames.core → guid ∉ changed → NameFor config changed guid name
  | spelled : (∀ key name, ¬ config.Lists guid key name) →
      ((∀ name, (guid, name) ∉ IidNames.core) ∨ guid ∈ changed) →
      NameFor config changed guid (Naming.ofGuid guid)

/-- Entries that are written later have greater keys. -/
theorem nameFor_of_find? {key name : String}
    (found : config.iidNames.entries.reverse.find? (fun entry => Guid.parse entry.1 = .ok guid) =
      some (key, name)) : config.NameFor changed guid name := by
  obtain ⟨reads, later, earlier, split, passed⟩ := List.find?_eq_some_iff_append.mp found
  have listed := List.mem_reverse.mp (List.mem_of_find?_eq_some found)
  refine .configured ⟨listed, of_decide_eq_true reads⟩ fun key' name' ⟨listed', reads'⟩ => ?_
  rw [← List.mem_reverse, split, List.mem_append, List.mem_cons] at listed'
  rcases listed' with before | here | after
  · have skipped := passed _ before
    simp [reads'] at skipped
  · cases here
    exact le_refl _
  · have descending := List.pairwise_reverse.mpr config.iidNames.ascending
    rw [split] at descending
    have less := (List.pairwise_cons.mp (List.pairwise_append.mp descending).2.1).1 _ after
    exact le_of_lt (compare_lt_iff_lt.mp less)

theorem nameFor_of_unlisted (unlisted : ∀ key name, ¬ config.Lists guid key name) :
    config.NameFor changed guid
      ((if guid ∈ changed then none else (IidNames.core.find? (·.1 = guid)).map (·.2)).getD
        (Naming.ofGuid guid)) := by
  by_cases redefined : guid ∈ changed
  · rw [if_pos redefined]
    exact .spelled unlisted (.inr redefined)
  · rw [if_neg redefined]
    cases found : IidNames.core.find? (·.1 = guid) with
    | none =>
      refine .spelled unlisted (.inl fun name member => ?_)
      have passed := List.find?_eq_none.mp found (guid, name) member
      simp at passed
    | some entry =>
      obtain ⟨key, name⟩ := entry
      obtain rfl : key = guid := by simpa using List.find?_some found
      exact .core unlisted (List.mem_of_find?_eq_some found) redefined

/-- Each core interface has one name. -/
theorem core_name_unique {name other : String} (first : (guid, name) ∈ IidNames.core)
    (second : (guid, other) ∈ IidNames.core) : other = name := by
  have nodup : (IidNames.core.map Prod.fst).Nodup := by decide +kernel
  cases List.inj_on_of_nodup_map nodup first second rfl
  rfl

/-- The order of precedence decides on one name. -/
theorem NameFor.unique {name other : String} (first : config.NameFor changed guid name)
    (second : config.NameFor changed guid other) : other = name := by
  cases first with
  | configured listed greatest =>
    cases second with
    | configured listed' greatest' =>
      have same := le_antisymm (greatest _ _ listed') (greatest' _ _ listed)
      cases config.iidNames.entry_unique listed'.1 listed.1 same
      rfl
    | core unlisted | spelled unlisted => exact absurd listed (unlisted _ _)
  | core unlisted known kept =>
    cases second with
    | configured listed => exact absurd listed (unlisted _ _)
    | core _ known' => exact core_name_unique known known'
    | spelled _ unknown => exact absurd known (unknown.resolve_right kept _)
  | spelled unlisted unknown =>
    cases second with
    | configured listed => exact absurd listed (unlisted _ _)
    | core _ known kept => exact absurd known (unknown.resolve_right kept _)
    | spelled => rfl

/-- A declaration without a name is called what its GUID is called, first of all in the configuration. -/
theorem nameFor_baseName (built : config.graph view base = .ok (graph, changed))
    (known : config.knownNames graph changed = .ok iids) (found : graph.node? id = some node)
    (own : node.guid? = some guid) (nameless : node.name = "") (separator : String) :
    config.NameFor changed guid (Naming.baseName (some iids) separator id node) := by
  have shown : Naming.baseName (some iids) separator id node =
      (iids.get? guid).getD (Naming.ofGuid guid) := by
    simp [Naming.baseName, nameless, own]
  rw [shown, get?_knownNames built known found own nameless]
  cases listed : config.iidNames.entries.reverse.find? fun entry => Guid.parse entry.1 = .ok guid with
  | some entry => exact nameFor_of_find? listed
  | none =>
    refine nameFor_of_unlisted fun key name written => ?_
    obtain ⟨member, reads⟩ := written
    have passed := List.find?_eq_none.mp listed (key, name) (List.mem_reverse.mpr member)
    simp [reads] at passed

/-- The source shows the nodes of the graph under these names. -/
def Shows (config : Config) (graph : Graph) (names : Array String) (source : String) : Prop :=
  source = sourceText ((graph.plan (config.render.select graph graph.roots)).flatMap
    (RenderOptions.itemLines
      { graph, names
        dialect := config.render.dialect
        hideComments := config.render.hideComments
        bestEffort := config.render.bestEffort }))

/-- The source that is generated shows the names given out. -/
theorem shows_of_generate (built : config.graph view base = .ok (graph, changed))
    (known : config.knownNames graph changed = .ok iids) {source : String}
    (generated : config.generate view base = .ok source) :
    config.Shows graph (Naming.display graph (some iids) config.render.dialect.separator) source := by
  obtain ⟨_, built', generated⟩ := bind_eq_ok.mp generated
  cases built'.symm.trans built
  obtain ⟨_, known', generated⟩ := bind_eq_ok.mp generated
  cases known'.symm.trans known
  unfold RenderOptions.render RenderOptions.renderWith at generated
  cases blocked : config.render.obstacle? graph (config.render.select graph graph.roots) with
  | some id =>
    simp only [blocked] at generated
    cases generated
  | none =>
    simp only [blocked] at generated
    exact (Except.ok.inj generated).symm

end Config

open Naming in
/-- The source of a configuration shows its graph under the display names, and a declaration with a GUID
and no name of its own takes part in them under the name that the configuration has for the GUID: that of
the greatest key that reads as the GUID, or else that of a core interface that did not change, or else the
GUID. This does not depend on the names in the graph, where no other node has the GUID. -/
theorem nameless_declarations_named (built : config.graph view base = .ok (graph, changed))
    (known : config.knownNames graph changed = .ok iids) :
    (∀ source, config.generate view base = .ok source → config.Shows graph
      (display graph (some iids) config.render.dialect.separator) source) ∧
    ∀ id node guid, graph.node? id = some node → node.isDeclaration = true →
      node.guid? = some guid → node.name = "" →
        (∃! name, config.NameFor changed guid name) ∧
        (∀ name, config.NameFor changed guid name →
          baseName (some iids) config.render.dialect.separator id node = name ∧
          ∃ shown, (display graph (some iids) config.render.dialect.separator)[id]? = some shown ∧
            Picks (UsedBefore graph (display graph (some iids) config.render.dialect.separator) id)
              name 1 shown) ∧
        ∀ id' node', graph.node? id' = some node' → node'.guid? = some guid → id' = id := by
  refine ⟨fun source generated => Config.shows_of_generate built known generated,
    fun id node guid found declares own nameless => ?_⟩
  have called := Config.nameFor_baseName built known found own nameless
    config.render.dialect.separator
  refine ⟨⟨_, called, fun name other => called.unique other⟩, fun name other => ?_,
    fun id' node' found' own' => Config.guid_unique built found found' own own'⟩
  obtain rfl := called.unique other
  exact ⟨rfl, display_picks graph (some iids) _ found declares⟩

/-- Two proxies without names: one of a core interface, one whose IID the configuration spells twice. -/
def namelessConfig : Config where
  proxies := [⟨"proxy", "00000001-0000-0000-c000-000000000046", none⟩,
    ⟨"proxy", "00000002-0000-0000-c000-000000000046", none⟩]
  iidNames :=
    { entries := [("00000002-0000-0000-C000-000000000046", "IFirst"),
        ("\x7b00000002-0000-0000-c000-000000000046\x7d", "ISecond")]
      ascending := by decide +kernel }

/-- The graph of the two proxies. -/
def namelessGraph : Graph :=
  (Call.run (Call.run {} (.addProxy bareProxy (IidNames.coreIid 1) none .none))
    (.addProxy bareProxy (IidNames.coreIid 2) none .none)).graph

theorem namelessGraph_named :
    ∃ iids node node', namelessConfig.graph (fun _ => .ok bareProxy) "" = .ok (namelessGraph, []) ∧
      namelessConfig.knownNames namelessGraph [] = .ok iids ∧
      namelessGraph.node? 0 = some node ∧ namelessGraph.node? 1 = some node' ∧
      Naming.baseName (some iids) "." 0 node = "IClassFactory" ∧
      Naming.baseName (some iids) "." 1 node' = "ISecond" ∧
      ∃ source, namelessConfig.generate (fun _ => .ok bareProxy) "" = .ok source ∧
        namelessConfig.Shows namelessGraph (Naming.display namelessGraph (some iids) ".") source := by
  have built : namelessConfig.graph (fun _ => .ok bareProxy) "" = .ok (namelessGraph, []) := by
    decide +kernel
  have known : namelessConfig.knownNames namelessGraph [] =
      .ok (IidNames.wellKnown.insert (IidNames.coreIid 2) "ISecond") := by
    decide +kernel
  have unlisted : ∀ entry ∈ namelessConfig.iidNames.entries,
      Guid.parse entry.1 ≠ .ok (IidNames.coreIid 1) := by
    decide +kernel
  have greatest : ∀ entry ∈ namelessConfig.iidNames.entries,
      entry.1 ≤ "\x7b00000002-0000-0000-c000-000000000046\x7d" := by
    decide +kernel
  have core : namelessConfig.NameFor [] (IidNames.coreIid 1) "IClassFactory" :=
    .core (fun key name listed => unlisted (key, name) listed.1 listed.2) (by decide +kernel)
      (by decide)
  have configured : namelessConfig.NameFor [] (IidNames.coreIid 2) "ISecond" :=
    .configured ⟨by decide +kernel, by decide +kernel⟩ fun key name listed =>
      greatest (key, name) listed.1
  obtain ⟨shows, named⟩ := nameless_declarations_named built known
  obtain ⟨source, generated⟩ :
      ∃ source, namelessConfig.generate (fun _ => .ok bareProxy) "" = .ok source := by
    have ends : (namelessConfig.generate (fun _ => .ok bareProxy) "").isOk = true := by
      decide +kernel
    cases done : namelessConfig.generate (fun _ => .ok bareProxy) "" with
    | ok source => exact ⟨source, rfl⟩
    | error failure =>
      rw [done] at ends
      cases ends
  obtain ⟨node, found, own, declares, nameless⟩ : ∃ node, namelessGraph.node? 0 = some node ∧
      node.guid? = some (IidNames.coreIid 1) ∧ node.isDeclaration = true ∧ node.name = "" :=
    ⟨_, rfl, by decide +kernel⟩
  obtain ⟨node', found', own', declares', nameless'⟩ : ∃ node, namelessGraph.node? 1 = some node ∧
      node.guid? = some (IidNames.coreIid 2) ∧ node.isDeclaration = true ∧ node.name = "" :=
    ⟨_, rfl, by decide +kernel⟩
  refine ⟨_, node, node', built, known, found, found', ?_, ?_,
    source, generated, shows source generated⟩
  · exact ((named 0 node _ found declares own nameless).2.1 _ core).1
  · exact ((named 1 node' _ found' declares' own' nameless').2.1 _ configured).1

end ComTypes
