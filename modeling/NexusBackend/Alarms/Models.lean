import NexusBackend.Library.DateTime

/-!
Operator alarms and the filters of their list.

Both are frozen dataclasses with a `__post_init__`: a value is what the constructor was called
with and the fact that its checks passed. The `metadata` of an alarm is left out, nothing here
reads it.
-/
namespace NexusBackend

open Python

inductive Severity
  | info
  | warn
  | anomaly
  | critical
deriving DecidableEq

inductive Status
  | active
  | acknowledged
  | resolved
deriving DecidableEq

/-! ### Checks -/

def refuseIf (c : Prop) [Decidable c] : Except Exn Unit :=
  if c then raise .valueError else .ok ()

theorem refuseIf_ok_iff (c : Prop) [Decidable c] : refuseIf c = .ok () ↔ ¬ c := by
  rw [refuseIf]
  split
  · rename_i h
    exact iff_of_false nofun fun hn => hn h
  · rename_i h
    exact iff_of_true rfl h

theorem forM_ok_iff {α : Type} {x : Option α} {check : α → Except Exn Unit} :
    x.forM check = .ok () ↔ ∀ a, x = some a → check a = .ok () := by
  cases x with
  | none => exact iff_of_true rfl nofun
  | some a => exact ⟨fun h b hb => Option.some.inj hb ▸ h, fun h => h a rfl⟩

/-- One check after another. -/
theorem then_ok_iff {x y : Except Exn Unit} :
    (x >>= fun _ => y) = .ok () ↔ x = .ok () ∧ y = .ok () := by
  rw [bind_eq_ok_iff]
  exact ⟨fun ⟨_, hx, hy⟩ => ⟨hx, hy⟩, fun ⟨hx, hy⟩ => ⟨(), hx, hy⟩⟩

/-- `_require_len`, with 1 as the lower bound of every call. -/
def requireLen (value : Text) (hi : Nat) : Except Exn Unit :=
  refuseIf (value.length < 1 ∨ hi < value.length)

/-- `_require_aware`. -/
def requireAware (value : DateTime) : Except Exn Unit := refuseIf (value.offset = none)

/-- The value must not be before the other one. -/
def requireNotBefore (value other : DateTime) : Except Exn Unit := do
  refuseIf ((← value.before other) = true)

/-! ### Alarms -/

def sourceMaxLen : Nat := 64
def codeMaxLen : Nat := 64
def titleMaxLen : Nat := 48
def messageMaxLen : Nat := 240

structure AlarmFields where
  id : Text
  severity : Severity
  status : Status
  source : Text
  code : Text
  title : Text
  message : Text
  occurredAt : DateTime
  entityId : Option Text := none
  acknowledgedAt : Option DateTime := none
  resolvedAt : Option DateTime := none
deriving DecidableEq

namespace AlarmFields

/-- The check of the state against the two times. -/
def requireLifecycle (a : AlarmFields) : Except Exn Unit :=
  match a.status with
  | .active => refuseIf (a.acknowledgedAt ≠ none ∨ a.resolvedAt ≠ none)
  | .acknowledged => do
      refuseIf (a.acknowledgedAt = none)
      refuseIf (a.resolvedAt ≠ none)
  | .resolved => refuseIf (a.resolvedAt = none)

/-- `Alarm.__post_init__`. -/
def postInit (a : AlarmFields) : Except Exn Unit := do
  refuseIf (a.id = [])
  requireLen a.source sourceMaxLen
  requireLen a.code codeMaxLen
  requireLen a.title titleMaxLen
  requireLen a.message messageMaxLen
  refuseIf (a.entityId = some [])
  requireAware a.occurredAt
  a.acknowledgedAt.forM requireAware
  a.resolvedAt.forM requireAware
  a.requireLifecycle
  a.acknowledgedAt.forM fun acknowledged => requireNotBefore acknowledged a.occurredAt
  a.resolvedAt.forM fun resolved => do
    requireNotBefore resolved a.occurredAt
    a.acknowledgedAt.forM fun acknowledged => requireNotBefore resolved acknowledged

/-- The state of an alarm and its two times fit together. -/
def LifecycleFits (a : AlarmFields) : Prop :=
  match a.status with
  | .active => a.acknowledgedAt = none ∧ a.resolvedAt = none
  | .acknowledged => a.acknowledgedAt ≠ none ∧ a.resolvedAt = none
  | .resolved => a.resolvedAt ≠ none

/-- The invariants that the class names. -/
structure WellFormed (a : AlarmFields) : Prop where
  id : a.id ≠ []
  source : 1 ≤ a.source.length ∧ a.source.length ≤ 64
  code : 1 ≤ a.code.length ∧ a.code.length ≤ 64
  title : 1 ≤ a.title.length ∧ a.title.length ≤ 48
  message : 1 ≤ a.message.length ∧ a.message.length ≤ 240
  entity : a.entityId ≠ some []
  aware : ∀ t, t = a.occurredAt ∨ a.acknowledgedAt = some t ∨ a.resolvedAt = some t →
    t.offset ≠ none
  lifecycle : a.LifecycleFits
  acknowledged_after : ∀ t, a.acknowledgedAt = some t → t.before a.occurredAt = .ok false
  resolved_after : ∀ t, a.resolvedAt = some t → t.before a.occurredAt = .ok false
  resolved_last : ∀ r t, a.resolvedAt = some r → a.acknowledgedAt = some t →
    r.before t = .ok false

theorem requireLen_ok_iff (value : Text) (hi : Nat) :
    requireLen value hi = .ok () ↔ 1 ≤ value.length ∧ value.length ≤ hi := by
  rw [requireLen, refuseIf_ok_iff]
  omega

theorem requireNotBefore_ok_iff (value other : DateTime) :
    requireNotBefore value other = .ok () ↔ value.before other = .ok false := by
  rw [requireNotBefore, bind_eq_ok_iff]
  constructor
  · rintro ⟨b, hb, h⟩
    rw [hb, Bool.eq_false_of_not_eq_true ((refuseIf_ok_iff _).mp h)]
  · exact fun h => ⟨false, h, rfl⟩

theorem requireLifecycle_ok_iff (a : AlarmFields) :
    a.requireLifecycle = .ok () ↔ a.LifecycleFits := by
  rw [requireLifecycle, LifecycleFits]
  cases a.status with
  | active =>
      dsimp only
      rw [refuseIf_ok_iff, not_or, not_not, not_not]
  | acknowledged =>
      dsimp only
      rw [then_ok_iff, refuseIf_ok_iff, refuseIf_ok_iff, not_not]
  | resolved =>
      dsimp only
      rw [refuseIf_ok_iff]

theorem postInit_ok_iff (a : AlarmFields) : a.postInit = .ok () ↔ a.WellFormed := by
  simp only [postInit, then_ok_iff, refuseIf_ok_iff, forM_ok_iff, requireLen_ok_iff,
    requireNotBefore_ok_iff, requireAware, requireLifecycle_ok_iff]
  constructor
  · rintro ⟨hid, hsource, hcode, htitle, hmessage, hentity, hocc, hack, hres, hlife, hafter, hlast⟩
    refine ⟨hid, hsource, hcode, htitle, hmessage, hentity, ?_, hlife, hafter,
      fun r hr => (hlast r hr).1, fun r t hr ht => (hlast r hr).2 t ht⟩
    rintro t (rfl | ht | ht)
    · exact hocc
    · exact hack t ht
    · exact hres t ht
  · intro h
    exact ⟨h.id, h.source, h.code, h.title, h.message, h.entity, h.aware _ (.inl rfl),
      fun t ht => h.aware t (.inr (.inl ht)), fun t ht => h.aware t (.inr (.inr ht)),
      h.lifecycle, h.acknowledged_after,
      fun r hr => ⟨h.resolved_after r hr, fun t ht => h.resolved_last r t hr ht⟩⟩

end AlarmFields

structure Alarm extends AlarmFields where
  checked : toAlarmFields.postInit = .ok ()
deriving DecidableEq

namespace Alarm

/-- The instant of `occurred_at`. -/
def occurred (a : Alarm) : Int := (a.occurredAt.instant?).getD 0

theorem occurred_aware (a : Alarm) : a.occurredAt.instant? = some a.occurred := by
  have haware := ((AlarmFields.postInit_ok_iff _).mp a.checked).aware _ (.inl rfl)
  obtain ⟨i, hi⟩ := (DateTime.aware_iff _).mp haware
  rw [occurred, hi]
  rfl

end Alarm

/-! ### Filters -/

def limitMin : Int := 1
def limitMax : Int := 200
def limitDefault : Int := 50

theorem limitDefault_range : limitMin ≤ limitDefault ∧ limitDefault ≤ limitMax := by decide

structure AlarmFilterFields where
  statuses : Finset Status := {.active}
  severities : Option (Finset Severity) := none
  sources : Option (List Text) := none
  since : Option DateTime := none
  limit : Int := limitDefault

/-- `AlarmListFilters.__post_init__`. -/
def AlarmFilterFields.postInit (f : AlarmFilterFields) : Except Exn Unit := do
  refuseIf (f.statuses = ∅)
  refuseIf (f.severities = some ∅)
  f.sources.forM fun sources => do
    refuseIf (sources = [])
    refuseIf (∃ s ∈ sources, s = [] ∨ sourceMaxLen < s.length)
  refuseIf (f.limit < limitMin ∨ limitMax < f.limit)
  f.since.forM requireAware

structure AlarmListFilters extends AlarmFilterFields where
  checked : toAlarmFilterFields.postInit = .ok ()

namespace AlarmListFilters

/-- `AlarmListFilters(...)`. -/
def make (fields : AlarmFilterFields) : Except Exn AlarmListFilters :=
  match h : fields.postInit with
  | .ok () => .ok ⟨fields, h⟩
  | .error e => .error e

theorem make_ok {fields : AlarmFilterFields} (h : fields.postInit = .ok ()) :
    make fields = .ok ⟨fields, h⟩ := by
  rw [make]
  split
  · rfl
  · rename_i heq
    rw [h] at heq
    cases heq

theorem make_error {fields : AlarmFilterFields} {e : Exn} (h : fields.postInit = .error e) :
    make fields = .error e := by
  rw [make]
  split
  · rename_i heq
    rw [h] at heq
    cases heq
  · rename_i heq
    rw [h] at heq
    rw [Except.error.inj heq]

theorem since_aware (f : AlarmListFilters) {t : DateTime} (h : f.since = some t) :
    ∃ i, t.instant? = some i := by
  have hchecked := f.checked
  simp only [AlarmFilterFields.postInit, then_ok_iff] at hchecked
  obtain ⟨-, -, -, -, haware⟩ := hchecked
  exact (DateTime.aware_iff _).mp ((refuseIf_ok_iff _).mp (forM_ok_iff.mp haware t h))

theorem limit_range (f : AlarmListFilters) : 1 ≤ f.limit ∧ f.limit ≤ 200 := by
  have hchecked := f.checked
  simp only [AlarmFilterFields.postInit, then_ok_iff, refuseIf_ok_iff] at hchecked
  obtain ⟨-, -, -, hlimit, -⟩ := hchecked
  rw [limitMin, limitMax] at hlimit
  omega

end AlarmListFilters
end NexusBackend
