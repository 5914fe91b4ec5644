import Mathlib.Algebra.Group.Nat.Defs
import Mathlib.Data.List.Basic
import Realization.Declaration.Encoding

/-!
The encoding tells declarations apart. Nothing frames it as a whole; instead each piece says by itself
where it ends, so that two rows of bytes that begin with a piece each agree only if they begin with the
same one. Lengths are written in eight bytes, so this holds for what can be counted in eight bytes.
-/
namespace Realization

namespace Encoding

/- Whatever follows it, the encoding of an item shows where the item ends and which one it is. -/
def Delimits {α : Type} (Counted : α → Prop) (encode : α → List UInt8) : Prop :=
  ∀ a b rest rest', Counted a → Counted b → encode a ++ rest = encode b ++ rest' → a = b ∧ rest = rest'

theorem lengthSize (n : Nat) : (length n).length = 8 := by simp [length]

theorem bytesExact {count n m : Nat} (small : n < 256 ^ count) (small' : m < 256 ^ count)
    (same : ∀ i < count, n / 256 ^ i % 256 = m / 256 ^ i % 256) : n = m := by
  induction count generalizing n m with
  | zero => omega
  | succ count ih =>
    have low : n % 256 = m % 256 := by simpa using same 0 (Nat.succ_pos count)
    have high : n / 256 = m / 256 := by
      refine ih (by omega) (by omega) fun i below => ?_
      simpa only [Nat.pow_succ', Nat.div_div_eq_div_mul] using same (i + 1) (Nat.succ_lt_succ below)
    omega

theorem lengthExact {n m : Nat} (small : n < 2 ^ 64) (small' : m < 2 ^ 64) (same : length n = length m) :
    n = m := by
  have range : 2 ^ 64 = 256 ^ 8 := rfl
  rw [range] at small small'
  refine bytesExact small small' fun i below => ?_
  have byte := congrArg UInt8.toNat (List.map_inj_left.mp same i (List.mem_range.mpr below))
  simpa [Nat.shiftRight_eq_div_pow, Nat.pow_mul] using byte

theorem lengthDelimits : Delimits (· < 2 ^ 64) length := by
  intro n m rest rest' small small' same
  obtain ⟨same, left⟩ := List.append_inj same (by rw [lengthSize, lengthSize])
  exact ⟨lengthExact small small' same, left⟩

theorem utf8Exact {s t : String} (same : utf8 s = utf8 t) : s = t :=
  String.toByteArray_inj.mp (ByteArray.ext (Array.toList_inj.mp same))

theorem textDelimits : Delimits (fun s : String => s.utf8ByteSize < 2 ^ 64) text := by
  intro s t rest rest' small small' same
  simp only [text, List.append_assoc] at same
  obtain ⟨size, same⟩ := lengthDelimits _ _ _ _ small small' same
  obtain ⟨same, left⟩ := List.append_inj same size
  exact ⟨utf8Exact same, left⟩

section

variable {α : Type} {Counted : α → Prop} {item : α → List UInt8}

theorem itemsDelimit (delimits : Delimits Counted item) {xs ys : List α} {rest rest' : List UInt8}
    (counted : ∀ x ∈ xs, Counted x) (counted' : ∀ y ∈ ys, Counted y) (size : xs.length = ys.length)
    (same : xs.flatMap item ++ rest = ys.flatMap item ++ rest') : xs = ys ∧ rest = rest' := by
  induction xs generalizing ys with
  | nil =>
    cases List.length_eq_zero_iff.mp size.symm
    exact ⟨rfl, same⟩
  | cons x xs ih =>
    cases ys with
    | nil => contradiction
    | cons y ys =>
      obtain ⟨here, tail⟩ := List.forall_mem_cons.mp counted
      obtain ⟨here', tail'⟩ := List.forall_mem_cons.mp counted'
      simp only [List.flatMap_cons, List.append_assoc] at same
      obtain ⟨rfl, later⟩ := delimits _ _ _ _ here here' same
      obtain ⟨rfl, left⟩ := ih tail tail' (Nat.succ.inj size) later
      exact ⟨rfl, left⟩

theorem listDelimits (delimits : Delimits Counted item) :
    Delimits (fun xs => xs.length < 2 ^ 64 ∧ ∀ x ∈ xs, Counted x) (list item) := by
  intro xs ys rest rest' counted counted' same
  simp only [list, List.append_assoc] at same
  obtain ⟨size, same⟩ := lengthDelimits _ _ _ _ counted.1 counted'.1 same
  exact itemsDelimit delimits counted.2 counted'.2 size same

end

end Encoding

/- Every text and every list in it can be counted in eight bytes, as all that fit into memory can. -/
def Kind.Counted : Kind → Prop
  | .model name => name.utf8ByteSize < 2 ^ 64
  | _ => True

structure Member.Counted (m : Member) : Prop where
  name : m.name.utf8ByteSize < 2 ^ 64
  params : m.params.length < 2 ^ 64 ∧ ∀ kind ∈ m.params, kind.Counted
  returns : ∀ kind ∈ m.returns, kind.Counted

structure Declaration.Counted (d : Declaration) : Prop where
  name : d.name.utf8ByteSize < 2 ^ 64
  parents : d.parents.length < 2 ^ 64 ∧ ∀ parent ∈ d.parents, parent.utf8ByteSize < 2 ^ 64
  fields : d.fields.length < 2 ^ 64 ∧ ∀ field ∈ d.fields, field.utf8ByteSize < 2 ^ 64
  members : d.members.length < 2 ^ 64 ∧ ∀ m ∈ d.members, m.Counted

instance : DecidablePred Kind.Counted
  | .model name => inferInstanceAs (Decidable (name.utf8ByteSize < 2 ^ 64))
  | .text | .integer | .boolean | .float => inferInstanceAs (Decidable True)

instance : DecidablePred Member.Counted := fun m =>
  decidable_of_iff
    (m.name.utf8ByteSize < 2 ^ 64 ∧ (m.params.length < 2 ^ 64 ∧ ∀ kind ∈ m.params, kind.Counted) ∧
      ∀ kind ∈ m.returns, kind.Counted)
    ⟨fun ⟨name, params, returns⟩ => ⟨name, params, returns⟩,
      fun ⟨name, params, returns⟩ => ⟨name, params, returns⟩⟩

instance : DecidablePred Declaration.Counted := fun d =>
  decidable_of_iff
    (d.name.utf8ByteSize < 2 ^ 64 ∧
      (d.parents.length < 2 ^ 64 ∧ ∀ parent ∈ d.parents, parent.utf8ByteSize < 2 ^ 64) ∧
      (d.fields.length < 2 ^ 64 ∧ ∀ field ∈ d.fields, field.utf8ByteSize < 2 ^ 64) ∧
      d.members.length < 2 ^ 64 ∧ ∀ m ∈ d.members, m.Counted)
    ⟨fun ⟨name, parents, fields, members⟩ => ⟨name, parents, fields, members⟩,
      fun ⟨name, parents, fields, members⟩ => ⟨name, parents, fields, members⟩⟩

namespace Encoding

theorem kindDelimits : Delimits Kind.Counted kind := by
  intro a b rest rest' counted counted' same
  cases a <;> cases b
  case model.model name name' =>
    obtain ⟨rfl, left⟩ := textDelimits _ _ _ _ counted counted' (List.cons.inj same).2
    exact ⟨rfl, left⟩
  all_goals simp_all [kind]

theorem returnsDelimits : Delimits (fun k : Option Kind => ∀ kind ∈ k, kind.Counted) returns := by
  intro a b rest rest' counted counted' same
  cases a with
  | none =>
    cases b with
    | none => exact ⟨rfl, (List.cons.inj same).2⟩
    | some k => cases k <;> simp [returns, kind] at same
  | some k =>
    cases b with
    | none => cases k <;> simp [returns, kind] at same
    | some k' =>
      obtain ⟨rfl, left⟩ := kindDelimits _ _ _ _ (counted k rfl) (counted' k' rfl) same
      exact ⟨rfl, left⟩

theorem memberDelimits : Delimits Member.Counted member := by
  intro a b rest rest' counted counted' same
  obtain ⟨name, params, returns, hasBody⟩ := a
  obtain ⟨name', params', returns', hasBody'⟩ := b
  simp only [member, List.append_assoc] at same
  obtain ⟨rfl, signature⟩ := textDelimits _ _ _ _ counted.name counted'.name same
  obtain ⟨rfl, result⟩ := listDelimits kindDelimits _ _ _ _ counted.params counted'.params signature
  obtain ⟨rfl, flag⟩ := returnsDelimits _ _ _ _ counted.returns counted'.returns result
  cases hasBody <;> cases hasBody' <;> simp_all

theorem shapeExact {a b : Shape} (same : shape a = shape b) : a = b := by
  cases a <;> cases b <;> simp_all [shape]

theorem declarationDelimits : Delimits Declaration.Counted declaration := by
  intro a b rest rest' counted counted' same
  obtain ⟨name, shape, parents, fields, members⟩ := a
  obtain ⟨name', shape', parents', fields', members'⟩ := b
  simp only [declaration, List.append_assoc, List.singleton_append] at same
  obtain ⟨rfl, shaped⟩ := textDelimits _ _ _ _ counted.name counted'.name same
  obtain ⟨tag, lists⟩ := List.cons.inj shaped
  obtain rfl := shapeExact tag
  obtain ⟨rfl, own⟩ := listDelimits textDelimits _ _ _ _ counted.parents counted'.parents lists
  obtain ⟨rfl, listed⟩ := listDelimits textDelimits _ _ _ _ counted.fields counted'.fields own
  obtain ⟨rfl, left⟩ := listDelimits memberDelimits _ _ _ _ counted.members counted'.members listed
  exact ⟨rfl, left⟩

theorem declarationExact {a b : Declaration} (counted : a.Counted) (counted' : b.Counted) :
    declaration a = declaration b ↔ a = b :=
  ⟨fun same => (declarationDelimits a b [] [] counted counted' (by rw [same])).1, congrArg declaration⟩

def Collide (a b : Declaration) : Prop :=
  declaration a ≠ declaration b ∧ Digest.blake3 (declaration a) = Digest.blake3 (declaration b)

instance (a b : Declaration) : Decidable (Collide a b) := inferInstanceAs (Decidable (_ ∧ _))

end Encoding

theorem fingerprintExact {a b : Declaration} (counted : a.Counted) (counted' : b.Counted)
    (apart : ¬ Encoding.Collide a b) : a.fingerprint = b.fingerprint ↔ a = b := by
  constructor
  · intro same
    have digests := congrArg Fingerprint.bytes same
    exact (Encoding.declarationExact counted counted').mp
      (Decidable.byContradiction fun differ => apart ⟨differ, digests⟩)
  · exact congrArg Declaration.fingerprint

theorem encodingInjective {a b : Declaration} (counted : a.Counted) (counted' : b.Counted) :
    (Encoding.declaration a = Encoding.declaration b ↔ a = b) ∧
      (¬ Encoding.Collide a b → (a.fingerprint = b.fingerprint ↔ a = b)) :=
  ⟨Encoding.declarationExact counted counted', fingerprintExact counted counted'⟩

theorem encodingInjectiveParents :
    let joined := (Declaration.interface "Site").parent "ab"
    let parted := ((Declaration.interface "Site").parent "a").parent "b"
    joined.Counted ∧ parted.Counted ∧
      joined.parents.flatMap Encoding.utf8 = parted.parents.flatMap Encoding.utf8 ∧
      Encoding.declaration joined ≠ Encoding.declaration parted ∧
      joined.fingerprint ≠ parted.fingerprint := by
  intro joined parted
  have counted : joined.Counted := by decide
  have counted' : parted.Counted := by decide
  have differ : joined ≠ parted := by decide
  obtain ⟨encoded, digested⟩ := encodingInjective counted counted'
  exact ⟨counted, counted', by decide, encoded.not.mpr differ, (digested (by decide +kernel)).not.mpr differ⟩

end Realization
