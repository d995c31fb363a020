import ComTypes.Proofs.Library.RoundTrip
import ComTypes.Proofs.Proxy.Decode
import ComTypes.Proofs.Signature.Steps

/-!
# The proxy of a signature

The image of the proxy is decoded, each of its procedures is found where its slot says and read, and
the interface is built into the first node of the graph.
-/

namespace ComTypes.Signature

open Encode

variable {signature : Signature} {inherited : Nat}

/-! ### Reading a procedure -/

theorem base_formatChar (type : CommonType) :
    FormatChar.base? type.formatChar = some type.primitive := by
  cases type <;> rfl

/-- The entry of a parameter. -/
def Param.entry (param : Param) : ParamEntry where
  type := .base param.type.primitive param.byReference
  isIn := param.isIn
  isOut := param.isOut
  isReturn := false

/-- The entry of a result code. -/
def resultEntry : ParamEntry where
  type := .base .hresult false
  isIn := false
  isOut := true
  isReturn := true

def Result.listed : Result → List ParamEntry
  | hresult => [resultEntry]
  | nothing => []

/-- The entries of a method's procedure. -/
def Method.listed (method : Method) : List ParamEntry :=
  method.params.map Param.entry ++ method.result.listed

/-- The attributes say how a parameter is passed. -/
theorem Param.attributes_flags (param : Param) :
    param.attributes &&& 0x0040 ≠ 0 ∧ param.attributes &&& 0x0020 = 0 ∧
      decide (param.attributes &&& 0x0008 ≠ 0) = param.isIn ∧
      decide (param.attributes &&& 0x0010 ≠ 0) = param.isOut ∧
      decide (param.attributes &&& 0x0100 ≠ 0) = param.byReference := by
  obtain ⟨name, type, byReference, isIn, isOut⟩ := param
  simp only [Param.attributes]
  cases byReference <;> cases isIn <;> cases isOut <;> simp <;> decide

/-- A parameter's entry is read back. -/
theorem Param.reads_entry (param : Param) (place : Nat) :
    Reads Procedure.readEntry (encodeEntry ((param.attributes, param.type.formatChar), place))
      param.entry := by
  obtain ⟨isBase, notReturned, isIn, isOut, byReference⟩ := param.attributes_flags
  simp only [encodeEntry, List.append_assoc]
  apply (Reads.u16 _).bind
  apply (Reads.u16 _).bind
  rw [if_pos isBase]
  apply Reads.position
  intro start
  apply (Reads.u8 _).bind
  apply (Reads.u8 _).thenGive
  rw [if_neg fun returned => by simp [notReturned] at returned, base_formatChar]
  simp only [notReturned, isIn, isOut, byReference]
  exact .pure param.entry

/-- The entry of the result code is read back. -/
theorem reads_resultEntry (place : Nat) :
    Reads Procedure.readEntry (encodeEntry ((0x0070, FormatChar.long), place)) resultEntry := by
  simp only [encodeEntry, List.append_assoc]
  apply (Reads.u16 _).bind
  apply (Reads.u16 _).bind
  apply Reads.position
  intro start
  apply (Reads.u8 _).bind
  apply (Reads.u8 _).thenGive
  exact .pure resultEntry

/-- Entries are listed as long as each of them can be read. -/
theorem entriesFrom_eq {entries : List ((UInt16 × UInt8) × Nat)} {listed : List ParamEntry}
    (each : List.Forall₂ (fun entry item => Reads Procedure.readEntry (encodeEntry entry) item)
      entries listed) (pos : Nat) (rest : Bytes) :
    Procedure.entriesFrom entries.length ⟨pos, entries.flatMap encodeEntry ++ rest⟩ =
      ⟨listed, none⟩ := by
  induction each generalizing pos with
  | nil => rfl
  | cons head tail ih =>
    rw [List.flatMap_cons, List.append_assoc, List.length_cons, Procedure.entriesFrom, head]
    dsimp only
    rw [ih]
    rfl

/-- The entries of a procedure are those of its method, wherever they stand on the stack. -/
theorem Method.reads_entries (method : Method) :
    List.Forall₂ (fun entry item => Reads Procedure.readEntry (encodeEntry entry) item)
      method.entries.zipIdx method.listed := by
  have params : ∀ (params : List Param) (first : Nat),
      List.Forall₂ (fun entry item => Reads Procedure.readEntry (encodeEntry entry) item)
        ((params.map fun param => (param.attributes, param.type.formatChar)).zipIdx first)
        (params.map Param.entry) := by
    intro params
    induction params with
    | nil => exact fun _ => .nil
    | cons param rest ih => exact fun first => .cons (param.reads_entry first) (ih (first + 1))
  unfold Method.entries Method.listed
  rw [List.zipIdx_append]
  apply List.rel_append
  · exact params method.params 0
  · cases method.result with
    | hresult => exact .cons (reads_resultEntry _) .nil
    | nothing => exact .nil

/-- A procedure is read back, whatever stands behind it. -/
theorem Method.read_procedure {method : Method} (short : method.entries.length < 0x100) (pos : Nat)
    (rest : Bytes) :
    ∃ c, Procedure.read ⟨pos, method.procedure ++ rest⟩ =
      .ok ⟨method.number, method.listed, none⟩ c := by
  have count : (UInt8.ofNat method.entries.length).toNat = method.entries.length := by
    simp only [UInt8.toNat_ofNat']
    omega
  have listed := fun pos => entriesFrom_eq method.reads_entries pos rest
  rw [List.length_zipIdx] at listed
  unfold Procedure.read Method.procedure
  simp only [List.append_assoc]
  rw [position_bind, ok_bind (Reads.u8 0x33 _ _), ok_bind (Reads.u8 0x46 _ _), if_neg (by decide),
    if_neg (by decide), ok_bind (Reads.u16 method.number _ _), ok_bind (Reads.u16 _ _ _),
    if_neg (by decide), ok_bind (Reads.u16 0 _ _), ok_bind (Reads.u16 8 _ _),
    ok_bind (Reads.u8 0x06 _ _), ok_bind (Reads.u8 _ _ _), if_neg (by decide), get_bind, count, listed]
  exact ⟨_, rfl⟩

/-! ### Finding the procedures -/

/-- There is an offset for each method. -/
theorem length_offsetsFrom (methods : List Method) (start : Nat) :
    (offsetsFrom start methods).length = methods.length := by
  induction methods generalizing start with
  | nil => rfl
  | cons method rest ih => rw [offsetsFrom, List.length_cons, List.length_cons, ih]

theorem locate_append (front rest : Bytes) :
    Cursor.locate (front ++ rest) front.length = .ok ⟨front.length, rest⟩ := by
  simp [Cursor.locate]

theorem parse_of_read {format : Bytes} {offset : Nat} {c c' : Cursor} {procedure : Procedure}
    (located : Cursor.locate format offset = .ok c) (run : Procedure.read c = .ok procedure c') :
    Procedure.parse format offset = .ok procedure := by
  unfold Procedure.parse
  rw [located]
  dsimp only [bind, Except.bind]
  rw [run]
  rfl

/-- The procedures that stand behind those of other methods are found there. -/
theorem parse_offsets (before : List Method) {methods : List Method}
    (short : ∀ method ∈ methods, method.entries.length < 0x100) :
    List.Forall₂ (fun offset method =>
        Procedure.parse ((before ++ methods).flatMap Method.procedure) offset =
          .ok ⟨method.number, method.listed, none⟩)
      (offsetsFrom (before.flatMap Method.procedure).length methods) methods := by
  induction methods generalizing before with
  | nil => exact .nil
  | cons method rest ih =>
    constructor
    · obtain ⟨c, read⟩ := Method.read_procedure (short method List.mem_cons_self)
        (before.flatMap Method.procedure).length (rest.flatMap Method.procedure)
      rw [List.flatMap_append, List.flatMap_cons]
      exact parse_of_read (locate_append _ _) read
    · have later := ih (before ++ [method]) fun other member =>
        short other (List.mem_cons_of_mem _ member)
      simpa using later

/-! ### Building a method -/

/-- The type of a parameter is one of the steps of the signature. -/
theorem Param.paramType_eq (inner : Nat → Walk (TypeId × Nat)) (param : Param) :
    Walk.paramType inner param.entry.type = Walk.onGraph param.node := by
  obtain ⟨name, type, byReference, isIn, isOut⟩ := param
  cases byReference <;> rfl

/-- Where the proxy puts a method in the v-table. -/
def proxyOffset (method : Method) : Int32 :=
  Int32.ofNat (method.number.toNat * FormatChar.pointerSize)

theorem isReturn_of_mem {params : List Param} {types : List TypeId} {item : ParamEntry × TypeId}
    (inside : item ∈ (params.map Param.entry).zip types) : item.1.isReturn = false := by
  obtain ⟨entry, type⟩ := item
  obtain ⟨param, _, rfl⟩ := List.mem_map.mp (List.of_mem_zip inside).1
  rfl

/-- The entries of parameters become parameters with the names of the signature. -/
theorem parameters_proxy {method : Method} (member : method ∈ signature.methods)
    (types : List TypeId) {results : List (ParamEntry × TypeId)}
    (returned : ∀ item ∈ results, item.1.isReturn = true) :
    Walk.parameters signature.procedureNames (procedureId method.number)
        ((method.params.map Param.entry).zip types ++ results) =
      (method.params.zip types).zipIdx.map fun ((param, type), ordinal) =>
        param.parameter type ordinal := by
  have kept : (((method.params.map Param.entry).zip types ++ results).filter (!·.1.isReturn)) =
      (method.params.map Param.entry).zip types := by
    rw [List.filter_append, List.filter_eq_self.mpr, List.filter_eq_nil_iff.mpr, List.append_nil]
    · intro item inside
      simp [returned item inside]
    · intro item inside
      simp [isReturn_of_mem inside]
  unfold Walk.parameters
  rw [kept, List.zip_map_left, List.zipIdx_map, List.map_map]
  apply List.map_congr_left
  rintro ⟨⟨param, type⟩, ordinal⟩ inside
  have found : method.params[ordinal]? = some param := by
    have pair := List.mem_zipIdx_iff_getElem?.mp inside
    exact (List.getElem?_zip_eq_some.mp pair).1
  have name : signature.procedureNames (procedureId method.number) (ordinal + 1) = param.name :=
    lookup_param procedureId_injective member found
  simp only [Function.comp, Prod.map, id, name]
  rfl

/-- Entries with the nodes of their types. -/
theorem entries_eq (inner : Nat → Walk (TypeId × Nat)) (params : List Param) :
    (params.map Param.entry).mapM (Walk.entryType inner) =
      Walk.onGraph (params.mapM Param.node) >>= fun types =>
        pure ((params.map Param.entry).zip types) := by
  induction params with
  | nil => rfl
  | cons param rest ih =>
    rw [List.map_cons, List.mapM_cons, ih, Walk.entryType, param.paramType_eq, List.mapM_cons]
    rfl

/-- Only entries that return are results. -/
theorem results_eq (params : List Param) (types : List TypeId) {results : List (ParamEntry × TypeId)}
    (returned : ∀ item ∈ results, item.1.isReturn = true) :
    ((params.map Param.entry).zip types ++ results).filter (·.1.isReturn) = results := by
  rw [List.filter_append, List.filter_eq_nil_iff.mpr, List.filter_eq_self.mpr, List.nil_append]
  · exact returned
  · intro item inside
    simp [isReturn_of_mem inside]

/-- Building the method of a procedure is one of the steps of the signature. -/
theorem method_proxy {method : Method} (member : method ∈ signature.methods)
    (inner : Nat → Walk (TypeId × Nat)) :
    Walk.method inner signature.procedureNames ⟨method.number, method.listed, none⟩ =
      Walk.onGraph (method.built (proxyOffset method)) := by
  have name : signature.procedureNames (procedureId method.number) 0 = some method.name :=
    lookup_method procedureId_injective member
  rw [procedureId] at name
  unfold Walk.method Method.built Method.listed
  rw [List.mapM_append, entries_eq, bind_assoc, bind_assoc, Walk.onGraph_bind]
  congr 1
  funext types
  rw [pure_bind, Walk.onGraph_bind]
  cases method.result with
  | hresult =>
    have result : Result.hresult.listed.mapM (Walk.entryType inner) =
        Walk.onGraph (interned (.primitive .hresult)) >>= fun type => pure [(resultEntry, type)] := rfl
    rw [result, bind_assoc, bind_assoc]
    congr 1
    funext type
    have returned : ∀ item ∈ [(resultEntry, type)], item.1.isReturn = true := by simp [resultEntry]
    have parameters := parameters_proxy member types returned
    rw [procedureId] at parameters
    rw [pure_bind, pure_bind, Walk.resultType, results_eq _ _ returned]
    dsimp only [Walk.typedMethod]
    rw [name, parameters]
    rfl
  | nothing =>
    have returned : ∀ item ∈ ([] : List (ParamEntry × TypeId)), item.1.isReturn = true := by simp
    have parameters := parameters_proxy member types returned
    rw [procedureId] at parameters
    rw [Result.listed, List.mapM_nil, pure_bind, pure_bind, Walk.resultType, results_eq _ _ returned]
    dsimp only [Walk.typedMethod]
    rw [name, parameters]
    rfl

/-! ### Walking the slots -/

/-- Inherited slots are passed over. -/
theorem methods_inherited (image : ProxyImage) (names : NameLookup) (offsets : List UInt16)
    (count first : Nat) (w : Walker) :
    Walk.methods image names ((List.replicate count Procedure.inherited ++ offsets).zipIdx first) w =
      Walk.methods image names (offsets.zipIdx (first + count)) w := by
  induction count generalizing first with
  | zero => rfl
  | succ count ih =>
    rw [List.replicate_succ, List.cons_append, List.zipIdx_cons, Walk.methods, if_pos rfl, ih]
    congr 2
    omega

/-- Procedures that can all be built give their methods in order. -/
theorem methods_eq {image : ProxyImage} {names : NameLookup} {step : Method → StateM Graph ComTypes.Method}
    {offsets : List UInt16} {methods : List Method}
    (each : List.Forall₂ (fun offset method => offset ≠ Procedure.inherited ∧
      Walk.procedure image names offset.toNat = Walk.onGraph (step method)) offsets methods)
    (first : Nat) (w : Walker) :
    Walk.methods image names (offsets.zipIdx first) w =
      (((methods.mapM step w.graph).1, []), { w with graph := (methods.mapM step w.graph).2 }) := by
  induction each generalizing first w with
  | nil => rfl
  | @cons offset method offsets methods head tail ih =>
    obtain ⟨own, built⟩ := head
    rw [List.zipIdx_cons, Walk.methods, if_neg own, built, List.mapM_cons]
    have run : Walk.onGraph (step method) w =
        .ok (step method w.graph).1 { w with graph := (step method w.graph).2 } := rfl
    rw [run]
    dsimp only
    rw [ih]
    rfl

/-- The slots of the proxy give the methods of the signature. -/
theorem methods_proxy (fits : signature.Fits inherited) (w : Walker) :
    let built := signature.methods.mapM (fun method => method.built (proxyOffset method)) w.graph
    Walk.methods (signature.proxyImage inherited) signature.procedureNames
        (signature.proxyImage inherited).procOffsets.zipIdx w =
      ((built.1, []), { w with graph := built.2 }) := by
  have parsed : List.Forall₂ (fun offset method =>
      Procedure.parse (signature.proxyImage inherited).procFormat offset =
        .ok ⟨method.number, method.listed, none⟩) (offsetsFrom 0 signature.methods)
      signature.methods := parse_offsets [] fits.entries
  have members := (List.forall₂_and_left (p := (· ∈ signature.methods)) _ _).mpr
    ⟨fun _ inside => inside, parsed.flip⟩
  have placed := (List.forall₂_and_left _ _).mpr ⟨fits.offsets, members.flip⟩
  have each : List.Forall₂ (fun offset method => offset ≠ Procedure.inherited ∧
      Walk.procedure (signature.proxyImage inherited) signature.procedureNames offset.toNat =
        Walk.onGraph (method.built (proxyOffset method)))
      ((offsetsFrom 0 signature.methods).map UInt16.ofNat) signature.methods := by
    rw [List.forall₂_map_left_iff]
    apply placed.imp
    intro offset method ⟨small, member, parsed⟩
    have number : (UInt16.ofNat offset).toNat = offset := Utf16.toNat_unit (by omega)
    constructor
    · intro same
      have last := congrArg UInt16.toNat same
      rw [number] at last
      exact absurd last (Nat.ne_of_lt small)
    · rw [Walk.procedure, number, parsed]
      exact method_proxy member _
  unfold proxyImage at each ⊢
  rw [methods_inherited]
  exact methods_eq each _ w

/-! ### Adding the proxy -/

theorem Method.length_procedure_le {method : Method} (short : method.entries.length < 0x100) :
    method.procedure.length ≤ 0x10000 := by
  have entries : (method.entries.zipIdx.flatMap encodeEntry).length ≤ 6 * method.entries.length := by
    have each : ∀ entry ∈ method.entries.zipIdx, (encodeEntry entry).length ≤ 6 := by
      intro entry _
      simp [encodeEntry]
    simpa using length_flatMap_le each
  simp only [Method.procedure, List.length_append, length_u8, length_u16]
  omega

/-- Where the last procedure starts limits the length of them all. -/
theorem length_procedures_le {methods : List Method} {start : Nat} (begun : start ≤ 0x20000)
    (short : ∀ method ∈ methods, method.entries.length < 0x100)
    (offsets : ∀ offset ∈ offsetsFrom start methods, offset < 0xFFFF) :
    start + (methods.flatMap Method.procedure).length ≤ 0x20000 := by
  induction methods generalizing start with
  | nil => simpa using begun
  | cons method rest ih =>
    have here : start < 0xFFFF := offsets start List.mem_cons_self
    have length := Method.length_procedure_le (short method List.mem_cons_self)
    have later : start + method.procedure.length + (rest.flatMap Method.procedure).length ≤ 0x20000 := by
      apply ih
      · omega
      · exact fun other member => short other (List.mem_cons_of_mem _ member)
      · exact fun offset member => offsets offset (List.mem_cons_of_mem _ member)
    rw [List.flatMap_cons, List.length_append]
    omega

/-- The proxy image of a signature that fits can be written. -/
theorem proxyImage_fits (fits : signature.Fits inherited) :
    (signature.proxyImage inherited).Fits where
  count := by
    have slots := fits.slots
    simp only [proxyImage, List.length_append, List.length_replicate, List.length_map,
      length_offsetsFrom]
    exact slots
  procFormat := by
    have length := length_procedures_le (Nat.zero_le _) fits.entries fits.offsets
    simp only [proxyImage]
    omega
  typeFormat := by simp [proxyImage]

/-- The graph of the proxy. -/
def proxyGraph (signature : Signature) : Graph :=
  signature.finished (fun _ => "") proxyOffset Assemble.defined

/-- The base that the image names is the base of the signature. -/
theorem imageBase_eq (signature : Signature) (inherited : Nat) :
    Assemble.imageBase (signature.proxyImage inherited) =
      Assemble.onGraph (signature.baseNode fun _ => "") := by
  unfold Assemble.imageBase baseNode proxyImage
  cases signature.base with
  | none => rfl
  | some base =>
    simp only [Option.elim, base.nonzero]
    rfl

/-- The proxy image of a signature adds its interface. -/
theorem addProxyImage_run (fits : signature.Fits inherited) (strict : Bool) :
    Assemble.addProxyImage (signature.proxyImage inherited) signature.iid (some signature.name)
        signature.procedureNames { strict } =
      .ok 0 { strict, graph := signature.proxyGraph, proxyRecords := .insert {} signature.iid {} } := by
  have declared : Assemble.declare signature.iid signature.name (.interface {}) { strict } =
      .ok 0 { strict, graph := signature.start } :=
    Assemble.declare_of_unknown signature.name (.interface {}) rfl
  let based := signature.baseNode (fun _ => "") signature.start
  have base : Assemble.onGraph (signature.baseNode fun _ => "") { strict, graph := signature.start } =
      .ok based.1 { strict, graph := based.2 } := rfl
  let built := signature.methods.mapM (fun method => method.built (proxyOffset method)) based.2
  have methods : Assemble.proxyMethods (signature.proxyImage inherited) signature.iid
      signature.procedureNames { strict, graph := based.2 } =
        .ok (built.1, []) { strict, graph := built.2, proxyRecords := .insert {} signature.iid {} } := by
    unfold Assemble.proxyMethods
    dsimp only
    rw [methods_proxy fits]
    rfl
  rw [Assemble.addProxyImage_eq, imageBase_eq, get_bind, ok_bind (by exact declared), ok_bind base,
    ok_bind methods]
  dsimp only [Assemble.modifyNode]
  rw [modify_bind, ok_bind (settle_nil 0 _)]
  rfl

/-- Adding the proxy to a new graph builds the interface. -/
theorem addProxy_eq (fits : signature.Fits inherited) (strict : Bool) :
    ∃ b, Assemble.addProxy (signature.proxyImage inherited).encode signature.iid (some signature.name)
        signature.procedureNames { strict } = .ok 0 b ∧ b.graph = signature.proxyGraph := by
  have decoded := ProxyImage.decode_encode (proxyImage_fits fits)
  have added := addProxyImage_run fits strict
  unfold Assemble.addProxy
  rw [decoded]
  exact ⟨_, added, rfl⟩

end ComTypes.Signature
