import ComTypes.Proofs.Proxy.AddAgain
import ComTypes.Proofs.Wire.Frame

/-!
# Simple references

An entry of a procedure's parameter list says in its attributes whether the type is passed through a
simple reference, that is through a pointer which has no description of its own. The attribute counts
where the entry names a base type. Where the entry names the place of a type description, the node
decoded there is the type of the parameter, with the attribute or without
(`simple_references_wrap_base_types`).
-/

namespace ComTypes

open Assembler

/-! ### Entries as they are written -/

/-- An entry of a procedure's parameter list as it is written. -/
structure WrittenEntry where
  attributes : UInt16
  stackOffset : UInt16
  /-- The place of a type description, or the format character of a base type and a byte of padding. -/
  type : UInt16
deriving DecidableEq, Repr

namespace WrittenEntry

def encode (e : WrittenEntry) : Bytes :=
  Encode.u16 e.attributes ++ Encode.u16 e.stackOffset ++ Encode.u16 e.type

def isIn (e : WrittenEntry) : Bool := e.attributes &&& 0x0008 ≠ 0

def isOut (e : WrittenEntry) : Bool := e.attributes &&& 0x0010 ≠ 0

def isReturn (e : WrittenEntry) : Bool := e.attributes &&& 0x0020 ≠ 0

/-- The entry names a base type. -/
def isBase (e : WrittenEntry) : Bool := e.attributes &&& 0x0040 ≠ 0

def isSimpleRef (e : WrittenEntry) : Bool := e.attributes &&& 0x0100 ≠ 0

/-- The format character of a base type. -/
def code (e : WrittenEntry) : UInt8 := e.type.toUInt8

/-- A long integer that is returned is a result code. -/
def isResultCode (e : WrittenEntry) : Bool := e.isReturn && e.code = FormatChar.long

/-- The base type that the entry names. -/
def primitive? (e : WrittenEntry) : Option Primitive :=
  if e.isResultCode then some .hresult else FormatChar.base? e.code

/-- Whether the type is passed through a pointer that the entry does not describe. -/
def wraps (e : WrittenEntry) : Bool := e.isBase && e.isSimpleRef && !e.isResultCode

/-- What is read for the entry. -/
def readAs? (e : WrittenEntry) : Option ParamEntry :=
  if e.isBase then
    e.primitive?.map fun primitive => ⟨.base primitive e.wraps, e.isIn, e.isOut, e.isReturn⟩
  else some ⟨.described e.type.toNat, e.isIn, e.isOut, e.isReturn⟩

/-- The result code is read without its simple reference. -/
theorem readAs?_of_resultCode {e : WrittenEntry} (base : e.isBase = true)
    (code : e.isResultCode = true) :
    e.readAs? = some ⟨.base .hresult false, e.isIn, e.isOut, e.isReturn⟩ := by
  simp [readAs?, primitive?, wraps, base, code]

/-- A base type is read with the simple reference that was written. -/
theorem readAs?_of_base {e : WrittenEntry} {primitive : Primitive} (base : e.isBase = true)
    (other : e.isResultCode = false) (names : FormatChar.base? e.code = some primitive) :
    e.readAs? = some ⟨.base primitive e.isSimpleRef, e.isIn, e.isOut, e.isReturn⟩ := by
  simp [readAs?, primitive?, wraps, base, other, names]

/-- An entry with a type offset is read without its simple reference. -/
theorem readAs?_of_described {e : WrittenEntry} (described : e.isBase = false) :
    e.readAs? = some ⟨.described e.type.toNat, e.isIn, e.isOut, e.isReturn⟩ := by
  simp [readAs?, described]

/-- The return flag is read as it was written. -/
theorem isReturn_of_readAs? {e : WrittenEntry} {entry : ParamEntry} (read : e.readAs? = some entry) :
    entry.isReturn = e.isReturn := by
  unfold readAs? at read
  split at read
  · obtain ⟨_, _, rfl⟩ := Option.map_eq_some_iff.mp read
    rfl
  · cases read
    rfl

end WrittenEntry

namespace Procedure

/-- A byte and another behind it are a number of two bytes. -/
theorem exists_u16 (low high : UInt8) :
    ∃ n : UInt16, Encode.u8 low ++ Encode.u8 high = Encode.u16 n ∧ n.toUInt8 = low := by
  have small := low.toNat_lt
  have small' := high.toNat_lt
  have number : (UInt16.ofNat (low.toNat + 256 * high.toNat)).toNat =
      low.toNat + 256 * high.toNat := UInt16.toNat_ofNat_of_lt' (by simp [UInt16.size]; omega)
  refine ⟨.ofNat (low.toNat + 256 * high.toNat), ?_, ?_⟩
  · rw [Encode.u16, number]
    exact (Framed.littleEndian_littleEndian [low, high]).symm
  · rw [← UInt8.toNat_inj, UInt16.toNat_toUInt8, number]
    omega

/-- An entry that is read is written with its attributes and its type. -/
theorem readEntry_framed : Framed readEntry fun entry bytes =>
    ∃ e : WrittenEntry, bytes = e.encode ∧ e.readAs? = some entry := by
  refine Framed.u16.bind ?_
  rintro attributes _ rfl
  refine Framed.u16.bind ?_
  rintro stackOffset _ rfl
  refine .ite (fun base => .position fun place => Framed.u8.bind ?_) fun described =>
    Framed.u16.bind ?_
  · rintro code _ rfl
    refine Framed.u8.bind ?_
    rintro padding _ rfl
    obtain ⟨type, bytes, rfl⟩ := exists_u16 code padding
    have written : ∀ result, (⟨attributes, stackOffset, type⟩ : WrittenEntry).readAs? = some result →
        ∃ e : WrittenEntry, Encode.u16 attributes ++ (Encode.u16 stackOffset ++
          (Encode.u8 type.toUInt8 ++ (Encode.u8 padding ++ []))) = e.encode ∧
          e.readAs? = some result := fun result read => by
      refine ⟨_, ?_, read⟩
      rw [List.append_nil, bytes]
      simp only [WrittenEntry.encode, List.append_assoc]
    refine .ite (fun result => .pure (written _ ?_)) fun other => ?_
    · refine WrittenEntry.readAs?_of_resultCode (decide_eq_true base) ?_
      exact Bool.and_eq_true_iff.mpr ⟨decide_eq_true result.1, decide_eq_true result.2⟩
    · have other : WrittenEntry.isResultCode ⟨attributes, stackOffset, type⟩ = false := by
        rw [WrittenEntry.isResultCode, ← Bool.not_eq_true, Bool.and_eq_true]
        exact fun result => other (result.imp of_decide_eq_true of_decide_eq_true)
      cases names : FormatChar.base? type.toUInt8 with
      | some primitive =>
        exact .pure (written _ (WrittenEntry.readAs?_of_base (decide_eq_true base) other names))
      | none => exact .throw _
  · rintro type _ rfl
    refine .pure ⟨⟨attributes, stackOffset, type⟩, ?_, ?_⟩
    · simp [WrittenEntry.encode]
    · exact WrittenEntry.readAs?_of_described (decide_eq_false described)

/-- A list of entries that is read to its end is written entry by entry. -/
theorem entriesFrom_written {count : Nat} {c : Cursor}
    (whole : (entriesFrom count c).fault = none) :
    ∃ (entries : List WrittenEntry) (rest : Bytes), entries.length = count ∧
      c.rest = entries.flatMap WrittenEntry.encode ++ rest ∧
      entries.map WrittenEntry.readAs? = (entriesFrom count c).items.map some := by
  induction count generalizing c with
  | zero => exact ⟨[], c.rest, rfl, rfl, rfl⟩
  | succ count ih =>
    cases run : readEntry c with
    | error fault c' => simp [entriesFrom, run, Listing.failed] at whole
    | ok entry c' =>
      obtain ⟨_, ⟨e, rfl, read⟩, split, _⟩ := readEntry_framed c.pos c.rest entry c' run
      rw [entriesFrom, run] at whole ⊢
      obtain ⟨entries, rest, length, written, reads⟩ := ih whole
      refine ⟨e :: entries, rest, congrArg (· + 1) length, ?_, ?_⟩
      · rw [split, written, List.flatMap_cons, List.append_assoc]
      · rw [List.map_cons, read, reads]
        rfl

/-- Everything before the entries: the number of the procedure and of its entries. -/
def readHeader : Read (UInt16 × UInt8) := do
  let start ← Read.position
  let handle ← Read.u8
  let flags ← Read.u8
  if flags &&& requiredFlags ≠ requiredFlags then
    throw (.unsupportedFormat start (.oiFlags flags))
  if flags &&& hasCallFlags ≠ 0 then
    Read.skip 4
  let number ← Read.u16
  let _stackSize ← Read.u16
  if handle = 0 then
    skipHandle
  let _clientBuffer ← Read.u16
  let _serverBuffer ← Read.u16
  let options ← Read.u8
  let count ← Read.u8
  if options &&& hasExtensions ≠ 0 then
    skipExtensions
  return (number, count)

theorem ite_bind {α β : Type} (condition : Prop) [Decidable condition] (yes no : Read α)
    (next : α → Read β) :
    ((if condition then yes else no) >>= next) = if condition then yes >>= next else no >>= next := by
  split <;> rfl

/-- A procedure is a header and the entries that follow. -/
theorem read_eq : read = (do
    let (number, count) ← readHeader
    return ⟨number, entriesFrom count.toNat (← get)⟩) := by
  unfold read readHeader
  simp only [bind_assoc, pure_bind, ite_bind]

theorem read_of_parse {format : Bytes} {offset : Nat} {procedure : Procedure}
    (parsed : parse format offset = .ok procedure) :
    ∃ c, read ⟨offset, format.drop offset⟩ = .ok procedure c := by
  unfold parse Cursor.locate at parsed
  split at parsed
  · cases parsed
  · dsimp only [bind, Except.bind] at parsed
    split at parsed
    next procedure c run =>
      cases parsed
      exact ⟨c, run⟩
    next => cases parsed

/-- A procedure that can be parsed to the end stands at its offset: a header, and behind it as many
entries as the header says. -/
theorem parse_written {format : Bytes} {offset : Nat} {procedure : Procedure}
    (parsed : parse format offset = .ok procedure) (whole : procedure.entries.fault = none) :
    ∃ count c, ∃ entries : List WrittenEntry, ∃ rest,
      readHeader ⟨offset, format.drop offset⟩ = .ok (procedure.number, count) c ∧
      entries.length = count.toNat ∧ c.rest = entries.flatMap WrittenEntry.encode ++ rest ∧
      entries.map WrittenEntry.readAs? = procedure.entries.items.map some := by
  obtain ⟨_, run⟩ := read_of_parse parsed
  rw [read_eq] at run
  obtain ⟨⟨number, count⟩, _, header, ended⟩ := exists_of_bind_ok run
  cases ended
  obtain ⟨entries, rest, length, written, reads⟩ := entriesFrom_written whole
  exact ⟨count, _, entries, rest, header, length, written, reads⟩

end Procedure

/-! ### Structural nodes -/

theorem Graph.body?_intern {r : Regime} {g : Graph} (wf : g.WellFormed r) (s : Structural) :
    (g.intern s).2.body? (g.intern s).1 = some (.structural s) := by
  cases known : g.byStructure.get? s with
  | some id =>
    obtain ⟨node, found, _, body⟩ := (wf.interned_iff s id).mp known
    rw [Graph.intern_of_found known, Graph.body?, found, Option.map_some, body]
  | none =>
    have appended := Graph.WellFormed.appended (Graph.appends_intern known)
    rw [Graph.intern_fst_of_new known, Graph.body?, appended]
    rfl

/-- Structural nodes stay what they are: they are no records of a proxy. -/
theorem Walker.Stage.structural {r : Regime} {w w' : Walker} (stage : w.Stage r w')
    (sound : w.Sound r) {id : TypeId} {s : Structural}
    (body : w.graph.body? id = some (.structural s)) :
    w'.graph.body? id = some (.structural s) := by
  obtain ⟨node, found, shape⟩ := Option.map_eq_some_iff.mp body
  have apart : id ∈ w'.recordIds → id ∈ w.recordIds := by
    intro member
    rcases stage.origin id member with old | previous | new
    · exact old
    · obtain ⟨_, again, _, declares⟩ := sound.isRecord id (List.mem_append_left _ previous)
      cases found.symm.trans again
      rw [shape] at declares
      cases declares
    · exact absurd (Graph.lt_size_of_node? found) (Nat.not_lt.mpr new)
  obtain ⟨node', found', alike⟩ := stage.alike found apart
  rw [Graph.body?, found', Option.map_some, alike.body, shape]

/-! ### Types of entries -/

/-- The node decoded for an entry: that of the base type that it names, or that of the type described at
the place that it names. -/
def WrittenEntry.DecodesTo (format : Bytes) (e : WrittenEntry) (w : Walker) (target : TypeId)
    (v : Walker) : Prop :=
  if e.isBase then
    ∃ primitive, e.primitive? = some primitive ∧ Walk.primitive primitive w = .ok target v
  else ∃ size, Walk.type format (Walker.maxDepth + 1) e.type.toNat w = .ok (target, size) v

/-- The nodes decoded for entries in turn, each with the node that is the type of the entry. -/
inductive EntriesTyped (format : Bytes) :
    List WrittenEntry → Walker → List (TypeId × TypeId) → Walker → Prop
  | done (w : Walker) : EntriesTyped format [] w [] w
  | wrapped {e : WrittenEntry} {rest : List WrittenEntry} {w v t u : Walker} {target type : TypeId}
      {types : List (TypeId × TypeId)} (wraps : e.wraps = true)
      (decodes : e.DecodesTo format w target v) (made : Walk.pointerTo target v = .ok type t)
      (others : EntriesTyped format rest t types u) :
      EntriesTyped format (e :: rest) w ((target, type) :: types) u
  | bare {e : WrittenEntry} {rest : List WrittenEntry} {w v u : Walker} {target : TypeId}
      {types : List (TypeId × TypeId)} (bare : e.wraps = false)
      (decodes : e.DecodesTo format w target v) (others : EntriesTyped format rest v types u) :
      EntriesTyped format (e :: rest) w ((target, target) :: types) u

/-- The type of an entry is the node decoded for it, or a pointer to that where the entry wraps. -/
def WrittenEntry.PassedAs (g : Graph) (e : WrittenEntry) (types : TypeId × TypeId) : Prop :=
  if e.wraps then g.body? types.2 = some (.structural (.pointer types.1)) else types.2 = types.1

namespace Walk

open Walker

variable {r : Regime} {w t u : Walker} {format : Bytes}

/-- The type that an entry decodes to may be named. -/
theorem decodesTo_stage {e : WrittenEntry} {target : TypeId} (sound : w.Sound r)
    (decodes : e.DecodesTo format w target t) :
    w.Stage r t ∧ t.graph.Nameable (t.regime r) target := by
  unfold WrittenEntry.DecodesTo at decodes
  split at decodes
  · obtain ⟨primitive, _, made⟩ := decodes
    have stage := primitive_stage sound primitive
    rw [made] at stage
    exact ⟨stage.1, stage.2.1⟩
  · obtain ⟨size, walked⟩ := decodes
    have stage := type_stage format (maxDepth + 1) w e.type.toNat sound
    rw [walked] at stage
    exact ⟨stage.1, stage.2.1⟩

/-- Pointers that were made for earlier entries are still there in the end. -/
theorem passedAs_of_typed {entries : List WrittenEntry} {types : List (TypeId × TypeId)}
    (sound : w.Sound r) (typed : EntriesTyped format entries w types u) :
    w.Stage r u ∧ List.Forall₂ (WrittenEntry.PassedAs u.graph) entries types := by
  induction typed with
  | done w => exact ⟨.refl sound, .nil⟩
  | @wrapped e rest w v t u target type types wraps decodes made others ih =>
    obtain ⟨first, named⟩ := decodesTo_stage sound decodes
    have second := pointerTo_stage first.sound named
    rw [made] at second
    obtain ⟨third, passed⟩ := ih second.1.sound
    refine ⟨(first.trans second.1).trans third, .cons ?_ passed⟩
    have node := Graph.body?_intern first.sound.graph (.pointer target)
    cases made
    rw [WrittenEntry.PassedAs, if_pos wraps]
    exact third.structural second.1.sound node
  | bare bare decodes others ih =>
    obtain ⟨first, _⟩ := decodesTo_stage sound decodes
    obtain ⟨second, passed⟩ := ih first.sound
    refine ⟨first.trans second, .cons ?_ passed⟩
    rw [WrittenEntry.PassedAs, bare]
    rfl

/-- An entry that wraps gets a pointer to its type, and any other the type itself. -/
theorem paramType_cases {e : WrittenEntry} {entry : ParamEntry} {type : TypeId}
    (read : e.readAs? = some entry) (run : paramType (typeAt format) entry.type w = .ok type t) :
    (e.wraps = true ∧ ∃ target v, e.DecodesTo format w target v ∧ pointerTo target v = .ok type t) ∨
      e.wraps = false ∧ e.DecodesTo format w type t := by
  unfold WrittenEntry.DecodesTo
  cases base : e.isBase with
  | false =>
    rw [WrittenEntry.readAs?_of_described base] at read
    cases read
    obtain ⟨⟨id, size⟩, v, walked, ended⟩ := exists_of_bind_ok (by
      rwa [paramType, map_eq_pure_bind] at run)
    cases ended
    exact .inr ⟨by rw [WrittenEntry.wraps, base]; rfl, size, walked⟩
  | true =>
    rw [WrittenEntry.readAs?, base] at read
    obtain ⟨primitive, names, rfl⟩ := Option.map_eq_some_iff.mp read
    obtain ⟨target, v, made, passed⟩ := exists_of_bind_ok run
    cases wraps : e.wraps with
    | true =>
      rw [wraps] at passed
      exact .inl ⟨rfl, target, v, ⟨primitive, names, made⟩, passed⟩
    | false =>
      rw [wraps] at passed
      cases passed
      exact .inr ⟨rfl, primitive, names, made⟩

/-- The entries of a procedure are typed one after the other. -/
theorem typed_of_mapM {entries : List WrittenEntry} {items : List ParamEntry}
    {typed : List (ParamEntry × TypeId)}
    (reads : entries.map WrittenEntry.readAs? = items.map some)
    (run : items.mapM (entryType (typeAt format)) w = .ok typed u) :
    ∃ types, EntriesTyped format entries w types u ∧
      (typed.filter (!·.1.isReturn)).map (·.2) =
        ((entries.zip types).filter (!·.1.isReturn)).map (·.2.2) := by
  induction entries generalizing items w typed with
  | nil =>
    cases items with
    | cons item rest => cases reads
    | nil =>
      cases run
      exact ⟨[], .done _, rfl⟩
  | cons e entries ih =>
    cases items with
    | nil => cases reads
    | cons item items =>
      obtain ⟨read, reads⟩ := List.cons_eq_cons.mp reads
      have returns := WrittenEntry.isReturn_of_readAs? read
      rw [List.mapM_cons] at run
      obtain ⟨first, t, here, run⟩ := exists_of_bind_ok run
      obtain ⟨later, v, there, ended⟩ := exists_of_bind_ok run
      cases ended
      obtain ⟨type, t', passes, ended⟩ := exists_of_bind_ok here
      cases ended
      obtain ⟨types, others, same⟩ := ih reads there
      have together : ∀ target, (((item, type) :: later).filter (!·.1.isReturn)).map (·.2) =
          (((e :: entries).zip ((target, type) :: types)).filter (!·.1.isReturn)).map (·.2.2) := by
        intro target
        rw [List.zip_cons_cons, List.filter_cons, List.filter_cons, returns]
        cases e.isReturn with
        | true => exact same
        | false => exact congrArg (type :: ·) same
      rcases paramType_cases read passes with ⟨wraps, target, v, decodes, made⟩ | ⟨bare, decodes⟩
      · exact ⟨(target, type) :: types, .wrapped wraps decodes made others, together target⟩
      · exact ⟨(type, type) :: types, .bare bare decodes others, together type⟩

/-- The parameters have the types of the entries that are not returned, in order. -/
theorem parameters_types (names : NameLookup) (member : Int32)
    (entries : List (ParamEntry × TypeId)) :
    (parameters names member entries).map (·.type) =
      (entries.filter (!·.1.isReturn)).map (·.2) := by
  unfold parameters
  rw [List.map_map]
  conv_rhs => rw [← List.zipIdx_map_fst 0 (entries.filter (!·.1.isReturn)), List.map_map]
  rfl

/-- Asking for the type of the result leaves structural nodes as they are. -/
theorem resultType_structural (sound : w.Sound r) {entries : List (ParamEntry × TypeId)}
    {result id : TypeId} {s : Structural} (run : resultType entries w = .ok result t)
    (body : w.graph.body? id = some (.structural s)) :
    t.graph.body? id = some (.structural s) := by
  unfold resultType at run
  cases last : (entries.filter (·.1.isReturn)).getLast? with
  | some entry =>
    rw [last] at run
    cases run
    exact body
  | none =>
    rw [last] at run
    have made : primitive .void w = .ok result t := run
    have stage := primitive_stage sound .void
    rw [made] at stage
    exact stage.1.structural sound body

end Walk

/-- The method of the procedure at an offset has been decoded from its entries as they are written: each
has the node decoded for it and the node that is its type in the graph that is left. -/
structure Method.DecodedFrom (image : ProxyImage) (offset : Nat) (w last : Walker) (method : Method)
    (entries : List WrittenEntry) (types : List (TypeId × TypeId)) : Prop where
  /-- The entries stand behind the header, as many as it says. -/
  written : ∃ number count c rest,
    Procedure.readHeader ⟨offset, image.procFormat.drop offset⟩ = .ok (number, count) c ∧
      entries.length = count.toNat ∧ c.rest = entries.flatMap WrittenEntry.encode ++ rest
  typed : ∃ u, EntriesTyped image.typeFormat entries w types u
  passed : List.Forall₂ (WrittenEntry.PassedAs last.graph) entries types
  /-- The parameters are those of the entries that do not return. -/
  parameters : method.parameters.map (·.type) =
    ((entries.zip types).filter (!·.1.isReturn)).map (·.2.2)

open Walk in
/-- A procedure that decodes has a result and parameters decoded from its entries. -/
theorem Walker.Sound.decodedFrom {r : Regime} {w last : Walker} (sound : w.Sound r)
    {image : ProxyImage} {names : NameLookup} {offset : Nat} {method : Method}
    (run : procedure image names offset w = .ok method last) :
    ∃ entries types, method.DecodedFrom image offset w last entries types := by
  obtain ⟨parsed, _, lifted, built⟩ := exists_of_bind_ok run
  have here := lift_stage sound (Procedure.parse image.procFormat offset)
  rw [lifted] at here
  obtain ⟨_, rfl, parses⟩ := here
  obtain ⟨typed, u, mapped, built⟩ := exists_of_bind_ok built
  cases fault : parsed.entries.fault with
  | some fault =>
    rw [fault] at built
    cases built
  | none =>
    rw [fault] at built
    have built : (resultType typed >>= fun result =>
        pure (typedMethod names parsed.number typed result)) u = .ok method last := built
    obtain ⟨result, _, resulted, ended⟩ := exists_of_bind_ok built
    cases ended
    obtain ⟨count, c, entries, rest, header, length, written, reads⟩ :=
      Procedure.parse_written parses fault
    obtain ⟨types, all, same⟩ := typed_of_mapM reads mapped
    obtain ⟨stage, passed⟩ := passedAs_of_typed sound all
    refine ⟨entries, types, ⟨_, count, c, rest, header, length, written⟩, ⟨u, all⟩,
      passed.imp fun e pair passed => ?_, (parameters_types _ _ _).trans same⟩
    unfold WrittenEntry.PassedAs at passed ⊢
    split at passed
    next wraps =>
      rw [if_pos wraps]
      exact resultType_structural stage.sound resulted passed
    next bare => rwa [if_neg bare]

/-! ### Proxies -/

/-- The walker comes to one of the procedures of an image, while the image is added to an assembler that
can be reached. -/
def Walker.ComesUp (image : ProxyImage) (iid : Guid) (names : NameLookup) (w : Walker) : Prop :=
  ∃ a name id b base c before later methods,
    Reachable (fun _ _ => True) a ∧
    Assemble.declare iid (Assemble.proxyName a iid name) (.interface {}) a = .ok id b ∧
    Assemble.imageBase image b = .ok base c ∧ image.procOffsets.zipIdx = before ++ later ∧
    Walk.methods image names before (Walk.startOf c iid) = ((methods, []), w)

theorem Walker.ComesUp.sound {image : ProxyImage} {iid : Guid} {names : NameLookup} {w : Walker}
    (comes : w.ComesUp image iid names) : ∃ r, w.Sound r := by
  obtain ⟨a, name, id, b, base, c, before, later, methods, run, declared, based, _, walked⟩ := comes
  have first := Assemble.declare_hosts run.in_order iid (Assemble.proxyName a iid name)
  rw [declared] at first
  have second := Assemble.imageBase_advance first.1.sound image
  rw [based] at second
  exact ⟨_, (Walk.methods_stage (Walk.startOf_sound second.1.sound iid) walked).sound⟩

/-- A simple reference is wrapped in a pointer exactly if its entry names a base type, and is no result
code: the parameters of a procedure have the types of the entries that do not return, each the node
decoded for its entry, or a pointer to it where the entry wraps. -/
theorem simple_references_wrap_base_types {image : ProxyImage} {iid : Guid} {names : NameLookup}
    {w last : Walker} (comes : w.ComesUp image iid names) {offset : Nat} {method : Method}
    (run : Walk.procedure image names offset w = .ok method last) :
    ∃ entries types, method.DecodedFrom image offset w last entries types := by
  obtain ⟨r, sound⟩ := comes.sound
  exact sound.decodedFrom run

/-- A long integer and a structure, both passed through simple references. -/
def referenceEntries : List WrittenEntry := [⟨0x0148, 0, 0x0008⟩, ⟨0x0108, 0, 0⟩]

/-- A proxy with one procedure that takes both. -/
def referenceImage : ProxyImage where
  baseIid := .zero
  procOffsets := [0]
  procFormat := [0x33, 0x42, 3, 0, 0, 0, 0, 0, 0, 0, 0, 2] ++
    referenceEntries.flatMap WrittenEntry.encode
  typeFormat := [0x15, 3, 4, 0, 0x08, 0x5B]

/-- The walker that comes to the procedure when the proxy is the first. -/
def referenceStart : Walker :=
  Walk.startOf (left (Assemble.declare (.ofBytes [1]) "IProxy" (.interface {}) {})) (.ofBytes [1])

theorem referenceStart_comesUp : referenceStart.ComesUp referenceImage (.ofBytes [1]) .none :=
  ⟨{}, some "IProxy", 0, _, none, _, [], _, [], .start false, eq_ok_of_value? (by decide +kernel), rfl,
    rfl, rfl⟩

/-- The method of the procedure. -/
def referenceMethod : Method where
  name := "Proc3"
  returnType := 4
  parameters := [{ name := "p0", type := 2, ordinal := 0, flags := 1 },
    { name := "p1", type := 3, ordinal := 1, flags := 1 }]
  vtableOffset := 24

theorem referenceMethod_decodedFrom : ∃ last entries types,
    Walk.procedure referenceImage .none 0 referenceStart = .ok referenceMethod last ∧
      referenceMethod.DecodedFrom referenceImage 0 referenceStart last entries types := by
  have run : Walk.procedure referenceImage .none 0 referenceStart = .ok referenceMethod _ :=
    eq_ok_of_value? (by decide +kernel)
  obtain ⟨entries, types, decoded⟩ := simple_references_wrap_base_types referenceStart_comesUp run
  exact ⟨_, entries, types, run, decoded⟩

/-- Both entries are simple references, but the second parameter has the structure itself as its type. -/
theorem referenceMethod_unwrapped :
    (∀ e ∈ referenceEntries, e.isSimpleRef = true ∧ e.isReturn = false) ∧
      referenceStart.ComesUp referenceImage (.ofBytes [1]) .none ∧
      ∃ last, Walk.procedure referenceImage .none 0 referenceStart = .ok referenceMethod last ∧
        referenceMethod.parameters.map (fun p => last.graph.body? p.type) =
          [some (.structural (.pointer 1)),
            some (.record .struct [{ name := "Member0", type := 1, ordinal := 0 }])] := by
  refine ⟨by decide, referenceStart_comesUp, _, eq_ok_of_value? ?_, ?_⟩
  · decide +kernel
  · decide +kernel

end ComTypes
