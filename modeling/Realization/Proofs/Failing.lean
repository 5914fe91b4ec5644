import Mathlib.Data.List.Chain
import Realization.Proofs.Moments

/-!
How requests fail. Work that ends in a fault comes to the moment at which the fault is raised, and what has
failed since is what stood on the stack of that moment. At every moment exactly the types on the stack are
under way, each of them needs the next, and the last one is the one whose duties are being done.
-/
namespace Realization

open Relation

namespace Graph

inductive Moment.Raises (limit : Nat) : Moment → Fault → Prop where
  | unsynthesized {stack s own g fault verdicts}
      (answer : contractFor s g.registry.verdicts = (.error fault, verdicts)) :
      Raises limit ⟨stack, .synthesize s, own, g⟩ fault
  | lacking {stack s requiredBy via own g} :
      Raises limit ⟨stack, .lack s requiredBy via, own, g⟩ (.noCreator s requiredBy via)
  | broke {stack s id rule own g body inputs failure}
      (known : g.registry.rule? id = some rule) (applies : rule.subject.same s = true)
      (starts : rule.body.start? own = some body) (given : g.inputsFor rule.inputs = .ok inputs)
      (outcome : (body inputs).result = .error failure) :
      Raises limit ⟨stack, .run s id rule, own, g⟩ (.ruleFailed s rule.locator failure)
  | failed {stack via t own g} (asks : g.registry.Asks stack via t)
      (settled : g.standing (g.resolve t) = .failed) :
      Raises limit ⟨stack, .input via t, own, g⟩ (.previouslyFailed (g.resolve t))
  | cyclic {stack via t own g} (asks : g.registry.Asks stack via t)
      (busy : g.standing (g.resolve t) = .realizing) :
      Raises limit ⟨stack, .input via t, own, g⟩ (.cyclic (chainTo stack (g.resolve t)) via)
  | deep {stack via t own g} (asks : g.registry.Asks stack via t)
      (fresh : g.standing (g.resolve t) = .unrealized) (full : limit ≤ stack.length) :
      Raises limit ⟨stack, .input via t, own, g⟩ (.depthExceeded (g.resolve t) limit)

variable {limit : Nat} {stack : List TypeRef} {duties : List Duty} {own own₁ : Option Element}
  {g g₁ g' : Graph} {s t u : TypeRef} {via : Option Locator} {fault : Fault} {m : Moment}
  {result : Except Fault (Option Element)}

theorem Work.unfailed (work : Work limit stack duties own g (.ok own₁) g') (t : TypeRef) :
    g'.standing t = .failed ↔ g.standing t = .failed := by
  generalize answer : Except.ok own₁ = outcome at work
  induction work generalizing own₁ with
  | done => rfl
  | synthesized _ _ ih => exact ih answer
  | ran _ _ _ _ _ _ ih => exact ih answer
  | present _ _ _ ih => rw [ih answer, standingTrack]
  | @built _ _ u _ _ g _ _ _ _ _ fresh _ inner _ ih ih' =>
    rw [ih' answer, standingSettle inner.grows]
    by_cases same : (g.resolve u).same t
    · rw [if_pos same, ← standingCongr (TypeRef.sameIff.mp same), fresh]
      simp
    · simp [ih rfl, same]
  | unsynthesized | lacking | broke | failed | cyclic | deep | unbuilt => contradiction

/- Work that fails comes to the moment at which it does; what has failed since stood on the stack then. -/
theorem Work.raises (work : Work limit stack duties own g (.error fault) g') :
    ∃ m more, Comes limit stack duties own g m ∧ m.Raises limit fault ∧ m.stack = stack ++ more ∧
      ∀ t, g'.standing t = .failed ↔ g.standing t = .failed ∨ ∃ s ∈ more, s.name = t.name := by
  generalize answer : Except.error fault = outcome at work
  induction work with
  | done => contradiction
  | synthesized made _ ih =>
    obtain ⟨m, more, comes, raises, whole, failed⟩ := ih answer
    exact ⟨m, more, .later (.synthesized made .done) comes, raises, whole, failed⟩
  | unsynthesized made =>
    cases answer
    exact ⟨_, [], .here, .unsynthesized made, (List.append_nil _).symm, by simp; intro t; rfl⟩
  | lacking =>
    cases answer
    exact ⟨_, [], .here, .lacking, (List.append_nil _).symm, by simp⟩
  | ran known applies starts given outcome _ ih =>
    obtain ⟨m, more, comes, raises, whole, failed⟩ := ih answer
    exact ⟨m, more, .later (.ran known applies starts given outcome .done) comes, raises, whole, failed⟩
  | broke known applies starts given outcome =>
    cases answer
    exact ⟨_, [], .here, .broke known applies starts given outcome, (List.append_nil _).symm, by simp; intro t; rfl⟩
  | present asks settled _ ih =>
    obtain ⟨m, more, comes, raises, whole, failed⟩ := ih answer
    refine ⟨m, more, .later (.present asks settled .done) comes, raises, whole, fun t => ?_⟩
    rw [failed, standingTrack]
  | failed asks settled =>
    cases answer
    exact ⟨_, [], .here, .failed asks settled, (List.append_nil _).symm, by simp⟩
  | cyclic asks busy =>
    cases answer
    exact ⟨_, [], .here, .cyclic asks busy, (List.append_nil _).symm, by simp⟩
  | deep asks fresh full =>
    cases answer
    exact ⟨_, [], .here, .deep asks fresh full, (List.append_nil _).symm, by simp⟩
  | @built stack via u _ own g e g₁ _ _ asks fresh room inner _ _ ih =>
    obtain ⟨m, more, comes, raises, whole, failed⟩ := ih answer
    have turn : Work limit stack [.input via u] own g (.ok own) (g₁.mark (g.resolve u) (.realized e)) :=
      .built asks fresh room inner .done
    refine ⟨m, more, .later turn comes, raises, whole, fun t => ?_⟩
    rw [failed, turn.unfailed]
  | @unbuilt _ _ u _ _ g _ _ asks fresh room inner ih =>
    obtain ⟨m, more, comes, raises, whole, failed⟩ := ih answer
    refine ⟨m, g.resolve u :: more, .inside asks fresh room comes, raises, by simp [whole], fun t => ?_⟩
    rw [standingSettle inner.grows]
    by_cases same : (g.resolve u).same t
    · rw [if_pos same]
      exact ⟨fun _ => .inr ⟨_, List.mem_cons_self, TypeRef.sameIff.mp same⟩, fun _ => rfl⟩
    · have other := TypeRef.sameIff.not.mp same
      simp [failed, same, other]

theorem Comes.unfailed (comes : Comes limit stack duties own g m) (t : TypeRef) :
    m.graph.standing t = .failed ↔ g.standing t = .failed := by
  induction comes with
  | here => rfl
  | later turn _ ih => rw [ih, turn.unfailed]
  | @inside _ _ u _ _ g _ _ fresh _ _ ih =>
    rw [ih, standingEnter]
    by_cases same : (g.resolve u).same t
    · rw [if_pos same, ← standingCongr (TypeRef.sameIff.mp same), fresh]
      simp
    · rw [if_neg same]

structure Stacked (stack : List TypeRef) (g : Graph) : Prop where
  indexed : g.registry.Indexed
  busy : ∀ t, g.standing t = .realizing ↔ ∃ s ∈ stack, s.name = t.name
  distinct : (stack.map (·.name)).Nodup
  chain : stack.IsChain fun a b => g.registry.Needs a.name b.name

theorem Resting.stacked (resting : g.Resting) : Stacked [] g :=
  ⟨resting.coherent.sound.indexed, fun t => by simp [resting.quiet t], List.nodup_nil, .nil⟩

theorem Work.fails (work : Work limit [] [.input via t] own g (.error fault) g') (resting : g.Resting)
    (bounded : g.settings.maxDepth = limit) :
    g.standing t = .failed ∧ fault = .previouslyFailed (g.resolve t) ∨
      g.standing t = .unrealized ∧ g'.standing t = .failed := by
  have named := resolveName resting.coherent.sound.indexed t
  cases work with
  | present _ _ later => cases later
  | failed _ settled => exact .inl ⟨(standingCongr named g).symm.trans settled, rfl⟩
  | cyclic _ busy => exact absurd busy (resting.quiet _)
  | deep _ _ full =>
    rw [← bounded] at full
    exact absurd resting.coherent.depth (Nat.not_lt.mpr full)
  | built _ _ _ _ later => cases later
  | unbuilt _ fresh _ inner =>
    refine .inr ⟨(standingCongr named g).symm.trans fresh, ?_⟩
    simp [standingSettle inner.grows, resting.coherent.sound.indexed]

namespace Stacked

theorem grow (stacked : Stacked stack g) (grows : g.Grows g') : Stacked stack g' where
  indexed := stacked.indexed.congr grows.rules grows.entries
  busy t := (grows.realizing t).trans (stacked.busy t)
  distinct := stacked.distinct
  chain := by
    rw [Registry.needsKept grows.rules]
    exact stacked.chain

theorem enter (stacked : Stacked stack g) (asks : g.registry.Asks stack via t)
    (fresh : g.standing (g.resolve t) = .unrealized) :
    Stacked (stack ++ [g.resolve t]) (g.enter (g.resolve t)) where
  indexed := stacked.indexed
  busy u := by
    rw [standingEnter]
    by_cases same : (g.resolve t).same u
    · rw [if_pos same]
      exact ⟨fun _ => ⟨g.resolve t, by simp, TypeRef.sameIff.mp same⟩, fun _ => rfl⟩
    · have other := TypeRef.sameIff.not.mp same
      simp [same, other, stacked.busy]
  distinct := distinctPush stacked.distinct fun s member same => by
    have busy := (stacked.busy (g.resolve t)).mpr ⟨s, member, same⟩
    rw [fresh] at busy
    contradiction
  chain := asks.chains (resolveName stacked.indexed t) stacked.chain

theorem underwayNames (stacked : Stacked stack g) (distinct : (g.nodes.map (·.subject.name)).Nodup) :
    ((g.nodes.filter (·.progress = .realizing)).map (·.subject.name)).Perm (stack.map (·.name)) := by
  have apart : ((g.nodes.filter (·.progress = .realizing)).map (·.subject.name)).Nodup :=
    distinct.sublist (List.filter_sublist.map _)
  refine (List.perm_ext_iff_of_nodup apart stacked.distinct).mpr fun name => ?_
  rw [List.mem_map, List.mem_map]
  constructor
  · rintro ⟨n, chosen, rfl⟩
    obtain ⟨known, realizing⟩ := List.mem_filter.mp chosen
    exact (stacked.busy n.subject).mp ((memberStanding distinct known).trans (of_decide_eq_true realizing))
  · rintro ⟨s, under, rfl⟩
    have busy := standingProgress ((stacked.busy s).mpr ⟨s, under, rfl⟩) (by simp)
    obtain ⟨n, found, realizing⟩ := Option.map_eq_some_iff.mp busy
    exact ⟨n, List.mem_filter.mpr ⟨List.mem_of_find?_eq_some found, decide_eq_true realizing⟩, nodeName found⟩

theorem leads (stacked : Stacked stack g) (member : s ∈ stack) (top : stack.getLast? = some u) :
    ReflTransGen g.registry.Needs s.name u.name := by
  refine stacked.chain.backwards_induction (fun x => ReflTransGen g.registry.Needs x.name u.name) stack
    (fun x y step path => .head step path) (fun filled => ?_) s member
  rw [List.getLast?_eq_some_getLast filled, Option.some.injEq] at top
  rw [top]

end Stacked

theorem Comes.stacked (comes : Comes limit stack duties own g m) (stacked : Stacked stack g) :
    Stacked m.stack m.graph := by
  induction comes with
  | here => exact stacked
  | later turn _ ih => exact ih (stacked.grow turn.grows)
  | inside asks fresh _ _ ih => exact ih (stacked.enter asks fresh)

theorem Comes.owner (comes : Comes limit stack duties own g m) (indexed : g.registry.Indexed)
    (owned : ∀ duty ∈ duties, ∀ s, duty.owner? = some s → stack.getLast? = some s)
    (owner : m.duty.owner? = some s) : m.stack.getLast? = some s := by
  induction comes with
  | here => exact owned _ List.mem_cons_self s owner
  | later turn _ ih =>
    exact ih (indexed.congr turn.grows.rules turn.grows.entries)
      (fun duty member => owned duty (List.mem_cons_of_mem _ member)) owner
  | inside _ _ _ _ ih =>
    refine ih indexed (fun duty member u own => ?_) owner
    rw [indexed.dutyOwner member own, List.getLast?_concat]

end Graph

end Realization
