import ComTypes.Proofs.Assembly.Advance
import ComTypes.Proofs.Library.RoundTrip
import ComTypes.Proofs.Signature.Steps

/-!
# The type library of a signature

The image of the type library is decoded, and its one type info is built into the first node of the
graph.
-/

namespace ComTypes.Signature

open Encode

variable {signature : Signature} {memberId : UInt16 → Int32} {inherited : Nat}

/-! ### Decoding the image -/

theorem code_primitive (type : CommonType) : type.primitive.code? ≠ none := by
  cases type <;> decide

theorem Param.writable (param : Param) : param.elem.Writable := by
  unfold Param.elem Param.desc ElemDesc.Writable
  split
  · exact ⟨by simp [TypeDesc.depth, TypeDesc.maxDepth], code_primitive param.type⟩
  · exact ⟨by simp [TypeDesc.depth, TypeDesc.maxDepth], code_primitive param.type⟩

theorem Method.length_params_le (method : Method) : method.params.length ≤ method.entries.length := by
  simp [Method.entries]

/-- The descriptor of a method can be written. -/
theorem Method.func_writable {method : Method} (short : method.entries.length < 0x100)
    (member : Int32) : (method.func member).Writable where
  count := by
    have few := method.length_params_le
    simp only [Method.func, List.length_map]
    omega
  result := by
    have code : method.result.primitive.code? ≠ none := by cases method.result <;> decide
    exact ⟨Nat.zero_le _, code⟩
  params := by
    intro elem member
    obtain ⟨param, _, rfl⟩ := List.mem_map.mp member
    exact param.writable

theorem Param.length_elem_le (param : Param) : param.elem.encode.length ≤ 6 := by
  unfold Param.elem Param.desc
  split <;> simp [ElemDesc.encode, TypeDesc.encode]

theorem Method.length_func_lt {method : Method} (short : method.entries.length < 0x100)
    (member : Int32) : (method.func member).encode.length < 0x100000000 := by
  have few := method.length_params_le
  have params : ((method.func member).params.flatMap ElemDesc.encode).length ≤
      6 * method.params.length := by
    have each : ∀ elem ∈ (method.func member).params, elem.encode.length ≤ 6 := by
      intro elem inside
      obtain ⟨param, _, rfl⟩ := List.mem_map.mp inside
      exact param.length_elem_le
    simpa [Method.func] using length_flatMap_le each
  have result : (method.func member).result.encode.length = 4 := by
    simp [Method.func, ElemDesc.encode, TypeDesc.encode]
  simp only [FuncDesc.encode, List.length_append, length_header, length_i32, length_u16, length_i16,
    result]
  have tag : FuncDesc.tag.length = 4 := rfl
  omega

theorem Method.length_names_le (method : Method) (member : Int32) :
    (method.names member).length ≤ method.params.length + 1 := by
  rw [Method.names, List.length_cons]
  apply Nat.succ_le_succ
  calc
    _ ≤ method.params.zipIdx.length := List.length_filterMap_le _ _
    _ = method.params.length := List.length_zipIdx

theorem length_names_lt (fits : signature.Fits inherited) :
    (signature.names memberId).length < 0x100000000 := by
  have each : ∀ method ∈ signature.methods,
      (method.names (memberId method.number)).length ≤ 0x100 := by
    intro method member
    have few := method.length_names_le (memberId method.number)
    have params := method.length_params_le
    have entries := fits.entries method member
    omega
  have all := length_flatMap_le each
  have slots := fits.slots
  unfold Signature.names
  omega

/-- The names of a signature fit their table. -/
theorem names_fit (fits : signature.Fits inherited) :
    ∀ entry ∈ signature.names memberId, entry.1.ordinal < 0x10000 ∧ Short entry.2 := by
  rintro ⟨key, name⟩ inside
  obtain ⟨method, member, inside⟩ := List.mem_flatMap.mp inside
  rcases (Method.mem_names.mp inside).2 with ⟨zero, rfl⟩ | ⟨ordinal, param, found, given, place⟩
  · exact ⟨by simp [zero], fits.methodNames method member⟩
  · have bound : ordinal < method.params.length := (List.getElem?_eq_some_iff.mp found).1
    have params := method.length_params_le
    have entries := fits.entries method member
    refine ⟨?_, fits.paramNames method member param (List.mem_of_getElem? found) name given⟩
    show key.ordinal < _
    omega

theorem short_empty : Short "" := by decide

/-- The type info of a signature that fits can be written. -/
theorem typeInfo_fits (fits : signature.Fits inherited) :
    (signature.typeInfo memberId).Fits (signature.tables memberId) where
  name := fits.name
  docString := short_empty
  helpFile := short_empty
  attr := by
    simp [typeInfo, TypeAttr.encode, attr, Shape.encode, Shape.target?, TypeAttr.tag]
  funcs_count := by
    have slots := fits.slots
    simp only [typeInfo, List.length_map]
    omega
  funcs := by
    intro func inside
    obtain ⟨method, member, rfl⟩ := List.mem_map.mp inside
    exact method.length_func_lt (fits.entries method member) _
  vars_count := by simp [typeInfo]
  vars := by simp [typeInfo]
  implTypes_count := by
    cases h : signature.base <;> simp [typeInfo, h]
  references_count := by
    cases h : signature.base <;> simp [tables, h]
  references := by
    intro entry inside
    obtain ⟨base, member, rfl⟩ := List.mem_map.mp inside
    exact fits.base base (Option.mem_toList.mp member)
  names_count := length_names_lt fits
  names := names_fit fits
  memberDocs_count := by simp [tables]
  memberDocs := by simp [tables]
  customData_count := by simp [typeInfo]
  customData := by simp [typeInfo]

/-- The type info that is read back. -/
def readInfo (signature : Signature) (memberId : UInt16 → Int32) : TypeInfo :=
  (signature.typeInfo memberId).withTables (signature.tables memberId)

/-- The image of the type library is decoded. -/
theorem decode_libraryImage (fits : signature.Fits inherited) :
    Library.decode (signature.libraryImage memberId) =
      .ok { signature.library memberId with types := [signature.readInfo memberId] } := by
  apply Library.decode_encodeWith
  exact
    { name := short_empty
      docString := short_empty
      count := by simp [library]
      tables_count := rfl
      types := by
        intro entry inside
        obtain rfl := List.mem_singleton.mp inside
        exact typeInfo_fits fits }

/-! ### Building the interface -/

/-- The header of the type info is that of an interface. -/
theorem header_readInfo : (signature.readInfo memberId).header =
    .ok (signature.attr, .interface false) := by
  have decoded : TypeAttr.decode (signature.readInfo memberId).attr = .ok signature.attr := by
    apply TypeAttr.decode_encode
    intro target impossible
    cases impossible
  unfold TypeInfo.header
  rw [decoded]
  rfl

/-- The descriptor of each method is read back. -/
theorem funcDesc_readInfo (fits : signature.Fits inherited) {index : Nat} {method : Method}
    (found : signature.methods[index]? = some method) :
    Assemble.funcDesc (signature.readInfo memberId) index =
      .ok (method.func (memberId method.number)) := by
  have record : (signature.readInfo memberId).funcs[index]? =
      some (method.func (memberId method.number)).encode := by
    show (signature.methods.map _)[index]? = _
    rw [List.getElem?_map, found]
    rfl
  unfold Assemble.funcDesc
  rw [record]
  exact FuncDesc.decode_encode
    (Method.func_writable (fits.entries method (List.mem_of_getElem? found)) _)

/-- Resolving the type of a parameter is one of the steps of the signature. -/
theorem Param.resolve_eq (info : TypeInfo) (param : Param) :
    Assemble.resolve info param.desc = Assemble.onGraph param.node := by
  obtain ⟨name, type, byReference, isIn, isOut⟩ := param
  cases byReference <;> rfl

/-- A parameter is assembled from its descriptor and its name. -/
theorem parameter_eq (injective : Function.Injective memberId) {method : Method}
    (member : method ∈ signature.methods) {param : Param} {ordinal : Nat}
    (found : method.params[ordinal]? = some param) (index : Nat) :
    Assemble.parameter (signature.readInfo memberId) (signature.readInfo memberId).lookup index
      (memberId method.number) param.elem ordinal =
        Assemble.onGraph (param.built ordinal) := by
  have name : (signature.readInfo memberId).lookup (memberId method.number) (ordinal + 1) =
      param.name := lookup_param injective member found
  unfold Assemble.parameter Assemble.parameterName Param.built
  rw [name, Assemble.onGraph_bind]
  show Assemble.resolve _ param.desc >>= _ = _
  rw [param.resolve_eq]
  rfl

theorem parameters_eq (injective : Function.Injective memberId) {method : Method}
    (member : method ∈ signature.methods) (index : Nat) :
    ((method.params.map Param.elem).zipIdx.mapM fun (elem, ordinal) =>
      Assemble.parameter (signature.readInfo memberId) (signature.readInfo memberId).lookup index
        (memberId method.number) elem ordinal) =
      Assemble.onGraph (method.params.mapM Param.node) >>= fun types =>
        pure ((method.params.zip types).zipIdx.map fun ((param, type), ordinal) =>
          param.parameter type ordinal) := by
  rw [List.zipIdx_map, List.mapM_map]
  have steps : ∀ item ∈ method.params.zipIdx,
      Assemble.parameter (signature.readInfo memberId) (signature.readInfo memberId).lookup index
        (memberId method.number) item.1.elem item.2 = Assemble.onGraph (item.1.built item.2) := by
    intro item inside
    exact parameter_eq injective member (List.mem_zipIdx_iff_getElem?.mp inside) index
  calc
    _ = method.params.zipIdx.mapM fun item => Assemble.onGraph (item.1.built item.2) :=
      mapM_congr steps
    _ = Assemble.onGraph (method.params.zipIdx.mapM fun item => item.1.built item.2) :=
      (Assemble.onGraph_mapM _ _).symm
    _ = _ := congrArg Assemble.onGraph (mapM_zipIdx Param.node Param.parameter method.params 0)

/-- Building a method is one of the steps of the signature. -/
theorem method_eq (fits : signature.Fits inherited) (injective : Function.Injective memberId)
    {index : Nat} {method : Method} (found : signature.methods[index]? = some method) :
    Assemble.method (signature.readInfo memberId) (signature.readInfo memberId).lookup false index =
      Assemble.onGraph
        (method.built (method.func (memberId method.number)).vtableOffset.toInt32) := by
  have member := List.mem_of_getElem? found
  have name : Assemble.memberName {} (signature.readInfo memberId).lookup (memberId method.number) =
      method.name := by
    have known : (signature.readInfo memberId).lookup (memberId method.number) 0 =
        some method.name := lookup_method injective member
    simp [Assemble.memberName, known]
  have result : Assemble.resolve (signature.readInfo memberId) (.base method.result.primitive) =
      Assemble.onGraph (interned (.primitive method.result.primitive)) := rfl
  have parameters := parameters_eq injective member index
  unfold Assemble.method Method.built
  rw [funcDesc_readInfo fits found, Assemble.onGraph_bind]
  show (method.params.map Param.elem).zipIdx.mapM (fun (elem, ordinal) =>
    Assemble.parameter (signature.readInfo memberId) (signature.readInfo memberId).lookup index
      (memberId method.number) elem ordinal) >>= _ = _
  rw [parameters, bind_assoc]
  congr 1
  funext types
  rw [pure_bind, Assemble.onGraph_bind]
  show Assemble.resolve (signature.readInfo memberId) (.base method.result.primitive) >>= _ = _
  rw [result]
  congr 1
  funext returnType
  rw [← name]
  rfl

section Collect

variable {α γ : Type} {build : Nat → Assemble α} {step : γ → StateM Graph α}

theorem attempt_onGraph (step : StateM Graph α) :
    Assemble.attempt (Assemble.onGraph step) = Assemble.onGraph step >>= fun value =>
      pure (.ok value) := rfl

/-- The members from some position on are put behind those collected before. -/
theorem foldlM_collectNext {items : List γ} {first : Nat} (kept : Array α)
    (each : ∀ index item, items[index]? = some item →
      build (first + index) = Assemble.onGraph (step item)) :
    (List.range' first items.length).foldlM (Assemble.collectNext build) (kept, #[]) =
      Assemble.onGraph (items.mapM step) >>= fun members =>
        (pure (kept ++ members.toArray, #[]) : Assemble (Array α × Array Issue)) := by
  induction items generalizing first kept with
  | nil => simp [Assemble.onGraph_pure]
  | cons item items ih =>
    have here : build first = Assemble.onGraph (step item) := each 0 item rfl
    have added : Assemble.collectNext build (kept, #[]) first =
        Assemble.onGraph (step item) >>= fun member => pure (kept.push member, #[]) := by
      show Assemble.attempt (build first) >>= _ = _
      rw [here, attempt_onGraph, bind_assoc]
      rfl
    have later : ∀ index other, items[index]? = some other →
        build (first + 1 + index) = Assemble.onGraph (step other) := by
      intro index other found
      rw [Nat.add_assoc, Nat.add_comm 1 index]
      exact each (index + 1) other found
    rw [List.length_cons, List.range'_succ, List.foldlM_cons, added, bind_assoc, List.mapM_cons,
      Assemble.onGraph_bind, bind_assoc]
    congr 1
    funext member
    rw [pure_bind, ih _ later, Assemble.onGraph_bind, bind_assoc]
    congr 1
    funext members
    simp [Assemble.onGraph_pure]

/-- Members that all can be built are collected in order. -/
theorem collect_eq {items : List γ}
    (each : ∀ {index item}, items[index]? = some item → build index = Assemble.onGraph (step item)) :
    Assemble.collect items.length build = Assemble.onGraph (items.mapM step) >>= fun members =>
      pure (members, []) := by
  have all : ∀ index item, items[index]? = some item →
      build (0 + index) = Assemble.onGraph (step item) := by
    intro index item found
    rw [Nat.zero_add]
    exact each found
  rw [Assemble.collect_eq_foldlM, List.range_eq_range', foldlM_collectNext #[] all, bind_assoc]
  congr 1
  funext members
  simp

end Collect

/-- Where the type library puts a method in the v-table. -/
def libraryOffset (memberId : UInt16 → Int32) (method : Method) : Int32 :=
  (method.func (memberId method.number)).vtableOffset.toInt32

theorem funcs_attr (fits : signature.Fits inherited) :
    signature.attr.funcs.toNat = signature.methods.length := by
  have slots := fits.slots
  exact Utf16.toNat_unit (by omega)

theorem contained_ok {α : Type} {step : Assemble α} {a b : Assembler} {value : α}
    (run : step a = .ok value b) : Assemble.contained step a = .ok (some value, []) b := by
  have attempted : Assemble.attempt step a = .ok (.ok value) b := by
    rw [Assemble.attempt, run]
  unfold Assemble.contained
  rw [ok_bind attempted]
  rfl

theorem resolveHref_base {base : Base} (given : signature.base = some base) :
    Assemble.resolveHref (signature.readInfo memberId) 0 =
      Assemble.onGraph (·.external base.iid base.name (.interface {})) := by
  have reference : (signature.readInfo memberId).references.get? 0 =
      some (.external base.iid base.name .vtable) := by
    simp only [readInfo, TypeInfo.withTables, tables, given]
    apply Dict.get?_ofList_of_mem
    · simp
    · simp
  unfold Assemble.resolveHref
  rw [reference]
  rfl

/-- The base is found to be an interface. -/
theorem base_run {base : Base} (given : signature.base = some base) {a : Assembler}
    (begun : a.graph = signature.start) :
    let built := a.graph.external base.iid base.name (.interface {})
    Assemble.base (signature.readInfo memberId) 0 a = .ok built.1 { a with graph := built.2 } := by
  intro built
  have found : Assemble.resolveHref (signature.readInfo memberId) 0 a =
      .ok built.1 { a with graph := built.2 } := by
    rw [resolveHref_base given]
    rfl
  have interface : (built.2.body? built.1).any Body.isInterface = true := by
    simp only [built, begun, signature.body_external_start base base.name]
    rfl
  unfold Assemble.base
  rw [ok_bind found, get_bind, if_pos interface]
  rfl

/-- The declared base is the base of the signature. -/
theorem declaredBase_eq {a : Assembler} (begun : a.graph = signature.start) :
    Assemble.declaredBase (signature.readInfo memberId) a =
      (Assemble.onGraph (signature.baseNode (·.name)) >>= fun base => pure (base, [])) a := by
  unfold Assemble.declaredBase baseNode
  cases given : signature.base with
  | none =>
    have without : (signature.readInfo memberId).implTypes.head? = none := by
      simp [readInfo, TypeInfo.withTables, typeInfo, given]
    rw [without]
    rfl
  | some base =>
    have implemented : (signature.readInfo memberId).implTypes.head? = some ⟨0, 0⟩ := by
      simp [readInfo, TypeInfo.withTables, typeInfo, given]
    rw [implemented]
    dsimp only
    rw [contained_ok (base_run given begun)]
    rfl

/-- The body of the interface is the definition of the signature. -/
theorem body_eq (fits : signature.Fits inherited) (injective : Function.Injective memberId)
    {a : Assembler} (begun : a.graph = signature.start) :
    let built := signature.definition (·.name) (libraryOffset memberId) signature.start
    Assemble.body (signature.readInfo memberId) (signature.readInfo memberId).lookup signature.attr
      (.interface false) a = .ok (.interface built.1, []) { a with graph := built.2 } := by
  have methods : Assemble.collect signature.attr.funcs.toNat
      (Assemble.method (signature.readInfo memberId) (signature.readInfo memberId).lookup false) =
        Assemble.onGraph (signature.methods.mapM fun method =>
          method.built (libraryOffset memberId method)) >>= fun methods => pure (methods, []) := by
    rw [funcs_attr fits]
    exact collect_eq fun found => method_eq fits injective found
  have base : Assemble.declaredBase (signature.readInfo memberId) a =
      .ok ((signature.baseNode (·.name) a.graph).1, [])
        { a with graph := (signature.baseNode (·.name) a.graph).2 } := declaredBase_eq begun
  rw [Assemble.body_interface, methods, ok_bind base, begun]
  rfl

/-! ### Adding the library -/

/-- What building the type info makes of a node. -/
def libraryNode (signature : Signature) (memberId : UInt16 → Int32) (definition : Interface)
    (node : Node) : Node :=
  { node with
    name := signature.name
    doc := { name := signature.name }
    flags := 0
    version := (0, 0)
    customData := (signature.readInfo memberId).customDataFor .type
    external := false
    body := .interface definition }

/-- The graph of the type library. -/
def libraryGraph (signature : Signature) (memberId : UInt16 → Int32) : Graph :=
  signature.finished (·.name) (libraryOffset memberId) (signature.libraryNode memberId)

/-- The type info is built into the first node. -/
theorem build_eq (fits : signature.Fits inherited) (injective : Function.Injective memberId)
    {a : Assembler} (begun : a.graph = signature.start) (placed : a.slots.get? 0 = some 0) :
    Assemble.build (signature.readInfo memberId) 0 signature.attr (.interface false)
        (signature.readInfo memberId).lookup a =
      .ok 0 { a with graph := signature.libraryGraph memberId } := by
  have waiting : ((a.slots.get? 0).filter fun id =>
      (a.graph.node? id).any fun node => node.state = .pending) = some 0 := by
    rw [placed, begun, Option.filter_some, signature.node_start]
    rfl
  have slot : Assemble.slot (signature.readInfo memberId) 0 signature.attr (.interface false) a =
      .ok 0 a := by
    unfold Assemble.slot
    rw [get_bind, waiting]
    rfl
  have body := body_eq fits injective begun
  unfold Assemble.build Assemble.modifyNode
  rw [ok_bind slot, ok_bind body]
  dsimp only
  rw [modify_bind, ok_bind (settle_nil 0 _)]
  rfl

/-- A library of one type info adds its declaration. -/
theorem addLibrary_of_single {library : Library} {info : TypeInfo} {attr : TypeAttr}
    {definition : Definition} {a placed done : Assembler} {id : TypeId} (single : library.types = [info])
    (enlisted : Assemble.enlist info 0
      { a with slots := .empty, library := (library.libid, library.name) } =
        .ok (some (info, 0, attr, definition)) placed)
    (built : Assemble.build info 0 attr definition info.lookup placed = .ok id done) :
    Assemble.addLibrary library a = .ok [id] done := by
  unfold Assemble.addLibrary
  rw [modify_bind, single, List.zipIdx_singleton, List.mapM_cons, bind_assoc, ok_bind enlisted]
  exact ok_mapM_singleton built

/-- Adding the library to a new graph builds the interface. -/
theorem addLibrary_eq (fits : signature.Fits inherited) (injective : Function.Injective memberId)
    (strict : Bool) :
    ∃ a, Assemble.addLibrary { signature.library memberId with types := [signature.readInfo memberId] }
        { strict } = .ok [0] a ∧ a.graph = signature.libraryGraph memberId := by
  let placed : Assembler :=
    { strict, graph := signature.start, slots := Table.empty.insert 0 0 }
  have declared : Assemble.declareTypeInfo signature.iid 0 signature.name (.interface {}) { strict } =
      .ok 0 { strict, graph := signature.start } := by
    rw [Assemble.declareTypeInfo_of_nonzero signature.nonzero]
    exact Assemble.declare_of_unknown signature.name (.interface {}) rfl
  have enlisted : Assemble.enlist (signature.readInfo memberId) 0 { strict } =
      .ok (some (signature.readInfo memberId, 0, signature.attr, .interface false)) placed := by
    unfold Assemble.enlist
    rw [header_readInfo]
    dsimp only
    rw [ok_bind (by exact declared)]
    rfl
  exact ⟨_, addLibrary_of_single rfl enlisted (build_eq fits injective rfl rfl), rfl⟩

end ComTypes.Signature
