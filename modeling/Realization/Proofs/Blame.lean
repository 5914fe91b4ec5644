import Realization.Proofs.StaticCheck

/-!
What keeps a type from being realized. It is settled by the rules before anything is realized: the
type, or something that it needs, however far down, lacks a source, needs itself, or has a rule that
fails on its inputs. Such a type yields no element.
-/
namespace Realization.Graph

open Relation

variable {g : Graph} {t u : TypeRef} {e : Element}

def Fails (g : Graph) (t : TypeRef) : Prop :=
  ∃ read failure, (∀ i x, read i = some x → g.Yields i x) ∧ g.prescribed read t = some (.error failure)

def Flawed (g : Graph) (t : TypeRef) : Prop :=
  ¬ g.Supplied t ∨ TransGen g.registry.Needs t.name t.name ∨ g.Fails t

/- Something that `t` needs, however far down, is flawed; it may be `t` itself. -/
def Blamed (g : Graph) (t : TypeRef) : Prop :=
  ∃ u : TypeRef, ReflTransGen g.registry.Needs t.name u.name ∧ g.Flawed u

theorem Blamed.congr (blamed : g.Blamed t) (named : t.name = u.name) : g.Blamed u := by
  obtain ⟨v, path, flawed⟩ := blamed
  exact ⟨v, named ▸ path, flawed⟩

theorem Blamed.above (blamed : g.Blamed u) (required : g.registry.Requires t u) : g.Blamed t := by
  obtain ⟨v, path, flawed⟩ := blamed
  exact ⟨v, .head required.needs path, flawed⟩

theorem Yields.reach (sound : g.registry.Sound) (yields : g.Yields t e) {a : String}
    (path : ReflTransGen g.registry.Needs t.name a) : ∀ u : TypeRef, u.name = a → ∃ x, g.Yields u x := by
  induction path with
  | refl => exact fun u named => ⟨e, yields.congr named.symm⟩
  | @tail b c path needs ih =>
    intro u named
    obtain ⟨x, below⟩ := ih (.plain b) rfl
    obtain ⟨i, required, same⟩ := needs
    obtain ⟨y, found⟩ := below.inputs sound required
    exact ⟨y, found.congr (same.trans named.symm)⟩

theorem Yields.grounded (sound : g.registry.Sound) (yields : g.Yields t e) :
    Acc (fun b a => g.registry.Needs a b) t.name := by
  induction yields with
  | @rules t e read genuine made ih =>
    refine Acc.intro _ fun b needs => ?_
    obtain ⟨i, required, rfl⟩ := needs.requires
    obtain ⟨x, known⟩ := prescribedInputs sound made i required
    exact ih i x known

theorem Yields.supplied (sound : g.registry.Sound) (tracked : g.Tracked) (yields : g.Yields t e) :
    g.Supplied t := by
  intro missing
  cases yields with
  | rules genuine made =>
    have creation : g.registry.creationRule? t = none := by
      rw [sound.indexed.creationRuleExact, missing]
      rfl
    cases blank : g.blank? t with
    | none => simp [prescribed, created, creation, blank] at made
    | some x =>
      obtain ⟨n, d, contract, found, form, _⟩ := blankNode sound.indexed tracked blank
      exact ⟨n, found, by rw [form]; rfl⟩

theorem Yields.blameless (sound : g.registry.Sound) (tracked : g.Tracked) (yields : g.Yields t e) :
    ¬ g.Blamed t := by
  rintro ⟨u, path, flawed⟩
  obtain ⟨x, below⟩ := yields.reach sound path u rfl
  rcases flawed with missing | cycle | ⟨read, failure, genuine, made⟩
  · exact missing (below.supplied sound tracked)
  · exact accIrreflexive (below.grounded sound) cycle
  · cases below with
    | rules genuine' made' =>
      have same := prescribedUnique sound
        (fun i x y known found => (genuine' i x known).unique sound (genuine i y found)) made' made
      contradiction

end Realization.Graph
