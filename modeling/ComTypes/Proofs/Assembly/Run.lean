import ComTypes.Proofs.Proxy.Decode

/-!
# Runs of an assembler

An assembler starts empty and takes calls one after the other. A call that fails leaves what it did
before the failure, and the run goes on from there. `Reachable` collects the states that runs lead to,
where the calls can be restricted to those that are allowed in the state they meet. If all of them
respect a policy, every state is in order (`Reachable.ordered`).
-/

namespace ComTypes

/-- A call to an assembler. -/
inductive Call where
  | addLibrary (library : Library)
  | addTypeInfo (info : TypeInfo) (index : Nat) (names : NameLookup)
  | addProxy (bytes : Bytes) (iid : Guid) (name : Option String) (names : NameLookup)
  | external (guid : Guid) (name : String) (body : Body)
  | externalInterface (iid : Guid) (name : Option String)

namespace Call

/-- The state that a call leaves. -/
def run (a : Assembler) : Call → Assembler
  | addLibrary library => left (Assemble.addLibrary library a)
  | addTypeInfo info index names => left (Assemble.addTypeInfo info index names a)
  | addProxy bytes iid name names => left (Assemble.addProxy bytes iid name names a)
  | external guid name body => left (Assemble.onGraph (·.external guid name body) a)
  | externalInterface iid name => left (Assemble.onGraph (·.externalInterface iid name) a)

/-- The call keeps to the policy. The body of a type defined elsewhere counts only if its GUID is not
known yet. -/
def Respects (p : Policy) (a : Assembler) : Call → Prop
  | external guid _ body => a.graph.findGuid? guid = none →
      p.handed body ∧ ∀ t ∈ body.targets, a.graph.Nameable (p.regime a) t
  | addProxy _ iid _ _ => p.guarded → iid.isZero = false
  | addLibrary _ | addTypeInfo .. | externalInterface .. => True

end Call

/-- The states that runs of allowed calls lead to, in strict mode or not. -/
inductive Reachable (allowed : Assembler → Call → Prop) : Assembler → Prop
  | start (strict : Bool) : Reachable allowed { strict }
  | step {a : Assembler} (call : Call) :
      Reachable allowed a → allowed a call → Reachable allowed (call.run a)

theorem Reachable.mono {allowed allowed' : Assembler → Call → Prop} {a : Assembler}
    (h : Reachable allowed a) (more : ∀ a call, allowed a call → allowed' a call) :
    Reachable allowed' a := by
  induction h with
  | start strict => exact .start strict
  | step call _ ok ih => exact .step call ih (more _ call ok)

/-- One call keeps the assembler in order. -/
theorem Call.run_ordered {p : Policy} {a : Assembler} (ordered : a.Ordered p) (call : Call)
    (respects : call.Respects p a) : (call.run a).Ordered p := by
  have advanced : ∀ {α : Type} {post : α → Assembler → Prop} {result : EStateM.Result Fault _ α},
      Outcome (a.Advance (p.regime a)) post result → (left result).Ordered p :=
    fun outcome => ordered.advance outcome.left
  cases call with
  | addLibrary library => exact advanced (Assemble.addLibrary_advance ordered.sound library)
  | addTypeInfo info index names =>
    exact advanced (Assemble.addTypeInfo_advance ordered.sound info index names)
  | addProxy bytes iid name names =>
    exact (Assemble.addProxy_ordered ordered bytes respects name names).left
  | external guid name body =>
    obtain ⟨advance, _⟩ := Graph.external_advance guid name ordered.sound.graph
      (fun new _ _ => (respects new).1) (fun new => (respects new).2)
    exact ordered.advance (.withGraph ordered.sound advance)
  | externalInterface iid name =>
    have declares : (Body.interface {}).isDeclaration = true := rfl
    obtain ⟨advance, _⟩ := Graph.external_blank_advance iid (name.getD "") ordered.sound.graph
      declares rfl
    exact ordered.advance (.withGraph ordered.sound advance)

theorem Reachable.ordered {p : Policy} {a : Assembler}
    (h : Reachable (fun a call => call.Respects p a) a) : a.Ordered p := by
  induction h with
  | start strict => exact Assembler.start_ordered p strict
  | step call _ respects ih => exact call.run_ordered ih respects

end ComTypes
