import Realization.Contract.Verdicts
import Realization.Registry.Refusal

/-!
The registry of rules. Rules are numbered in the order in which they were accepted, and every type
that an accepted rule mentions has an entry, in the order of first mention: the type as first
seen, its first managed form, its creation rule and its mutation rules. A rule is accepted or
refused as a whole; only the memory of verdicts on contracts grows even when a rule is refused.
-/
namespace Realization

abbrev RuleId := Nat

structure Entry where
  type : TypeRef
  managed : Option TypeRef := none
  creator : Option RuleId := none
  mutators : List RuleId := []
  deriving DecidableEq, Repr

structure Registry where
  rules : List Rule := []
  entries : List Entry := []
  verdicts : Verdicts := {}
  isFrozen : Bool := false

namespace Entry

def mention (e : Entry) (t : TypeRef) : Entry :=
  if t.isManaged && e.managed.isNone then { e with managed := some t } else e

def enlist (rule : Rule) (id : RuleId) (e : Entry) : Entry :=
  if rule.creates then { e with creator := some id } else { e with mutators := e.mutators ++ [id] }

def update (t : TypeRef) (change : Entry → Entry) : List Entry → List Entry
  | [] => [change (Entry.mention { type := t } t)]
  | e :: rest =>
    if e.type.same t then change (e.mention t) :: rest else e :: update t change rest

end Entry

namespace Registry

def entry? (r : Registry) (t : TypeRef) : Option Entry := r.entries.find? (·.type.same t)

def rule? (r : Registry) (id : RuleId) : Option Rule := r.rules[id]?

def freeze (r : Registry) : Registry := { r with isFrozen := true }

def creator? (r : Registry) (t : TypeRef) : Option (RuleId × Rule) := do
  let id ← (← r.entry? t).creator
  let rule ← r.rule? id
  some (id, rule)

def mutators (r : Registry) (t : TypeRef) : List (RuleId × Rule) :=
  ((r.entry? t).map (·.mutators)).getD [] |>.filterMap fun id => (r.rule? id).map (id, ·)

def resolve? (r : Registry) (t : TypeRef) : Option TypeRef :=
  (r.entry? t).map fun e => e.managed.getD e.type

def checkContracts (locator : Locator) : List TypeRef → Verdicts → Except Refusal Unit × Verdicts
  | [], v => (.ok (), v)
  | t :: rest, v =>
    match t.declaration? with
    | none => checkContracts locator rest v
    | some d =>
      match v.validate d with
      | (.ok _, v) => checkContracts locator rest v
      | (.error violation, v) => (.error (.invalidContract locator t violation), v)

/-- The declaration that stands for the name of `t` before it: the registered one, else the first
among the types mentioned earlier in the same rule. -/
def knownDeclaration? (r : Registry) (earlier : List TypeRef) (t : TypeRef) : Option Declaration :=
  match (r.entry? t).bind (·.managed) with
  | some known => known.declaration?
  | none => (earlier.find? fun e => e.same t && e.isManaged).bind (·.declaration?)

def checkConflicts (r : Registry) (locator : Locator) :
    List TypeRef → List TypeRef → Except Refusal Unit
  | _, [] => .ok ()
  | earlier, t :: rest =>
    match t.declaration?, r.knownDeclaration? earlier t with
    | some declared, some registered =>
      if registered.fingerprint = declared.fingerprint then
        checkConflicts r locator (earlier ++ [t]) rest
      else
        .error (.conflictingContract t locator registered.fingerprint declared.fingerprint)
    | _, _ => checkConflicts r locator (earlier ++ [t]) rest

def checkOpen (r : Registry) (rule : Rule) : Except Refusal Unit :=
  if r.isFrozen then .error (.frozen rule.locator)
  else if rule.creates then
    match r.creator? rule.subject with
    | some (_, existing) =>
      .error (.duplicateCreator rule.subject existing.locator rule.locator)
    | none => .ok ()
  else .ok ()

def checkSubject (r : Registry) (rule : Rule) : Except Refusal Unit :=
  if rule.isInitializer && !((r.resolve? rule.subject).getD rule.subject).isManaged then
    .error (.noCreator rule.subject rule.locator)
  else .ok ()

def insert (r : Registry) (rule : Rule) : Registry :=
  let entries := Entry.update rule.subject (Entry.enlist rule r.rules.length) r.entries
  { r with
    rules := r.rules ++ [rule]
    entries := rule.inputs.foldl (fun entries t => Entry.update t id entries) entries }

def register (r : Registry) (rule : Rule) : Except Refusal RuleId × Registry :=
  match r.checkOpen rule with
  | .error refusal => (.error refusal, r)
  | .ok () =>
    match checkContracts rule.locator rule.mentions r.verdicts with
    | (.error refusal, verdicts) => (.error refusal, { r with verdicts })
    | (.ok (), verdicts) =>
      let r := { r with verdicts }
      match r.checkConflicts rule.locator [] rule.mentions with
      | .error refusal => (.error refusal, r)
      | .ok () =>
        match r.checkSubject rule with
        | .error refusal => (.error refusal, r)
        | .ok () => (.ok r.rules.length, r.insert rule)

end Registry

end Realization
