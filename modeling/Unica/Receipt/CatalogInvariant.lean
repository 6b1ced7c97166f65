import Unica.Receipt.Catalog

/-!
# The catalog represents its records

Both identity indexes are the inverse of the records they index, and the five
counters are sums over the records. Every guarded step keeps that, and while it
does so no machine word in a commit function leaves its range.
-/

namespace Unica.Receipt

open Lib CatalogEntry Table Finmap ReceiptCatalog List Option

variable {e : CatalogEntry}

namespace ReceiptCatalog

/-- Exactness of the indexes and of the counters, each of which is a machine word. -/
structure Exact (c : ReceiptCatalog) : Prop where
  keyed : ∀ {d e}, c.records.lookup d = some e → e.record.keyDigest = d
  bodyless : ∀ {d e}, c.records.lookup d = some e → e.withoutResultBody = e
  invocations : c.invocationIndex.Indexes c.records fun e => e.record.key.invocationId
  reservedTasks : c.reservedTaskIndex.Indexes c.records fun e => e.record.key.reservedTaskId
  actual : c.actualBytes = c.records.total liveActualBytes
  reserved : c.reservedResultBytes = c.records.total reservedResultBytes
  tombstone : c.tombstoneBytes = c.records.total tombstoneBytes
  live : c.liveRecords = c.records.total liveCount
  tombstones : c.tombstoneRecords = c.records.total tombstoneCount
  actual_lt : c.actualBytes < wordBound
  reserved_lt : c.reservedResultBytes < wordBound
  tombstone_lt : c.tombstoneBytes < wordBound
  live_lt : c.liveRecords < wordBound
  tombstones_lt : c.tombstoneRecords < wordBound

structure Represents (c : ReceiptCatalog) : Prop extends c.Exact where
  fits : c.actualBytes + c.reservedResultBytes < wordBound

theorem empty_represents : empty.Represents where
  keyed h := by simp [empty] at h
  bodyless h := by simp [empty] at h
  invocations := Table.Indexes.empty
  reservedTasks := Table.Indexes.empty
  actual := rfl
  reserved := rfl
  tombstone := rfl
  live := rfl
  tombstones := rfl
  actual_lt := by decide
  reserved_lt := by decide
  tombstone_lt := by decide
  live_lt := by decide
  tombstones_lt := by decide
  fits := by decide

theorem Exact.lookup_of_holds {c : ReceiptCatalog} (hc : c.Exact) {d : ReceiptKeyDigest}
    (h : c.holds d e = true) : c.records.lookup d = some e.withoutResultBody := by
  obtain ⟨stored, hs, hsame⟩ := holds_iff.mp h
  rw [hs, ← same_iff.mp hsame, hc.bodyless hs]

end ReceiptCatalog

/-- One call of a commit function. -/
inductive CatalogCommit where
  | insert (entry : CatalogEntry)
  | replace (replacement : CatalogEntry)
  | remove (expected : CatalogEntry)

namespace CatalogCommit

def apply (c : ReceiptCatalog) : CatalogCommit → ReceiptCatalog
  | insert entry => commitCatalogInsert c entry
  | replace replacement => commitCatalogReplace c replacement
  | remove expected => commitCatalogRemove c expected

/-- No addition of the call overflows and no subtraction underflows; a replacement finds
the entry it replaces. -/
def InRange (c : ReceiptCatalog) : CatalogCommit → Prop
  | insert e =>
      c.actualBytes + e.liveActualBytes < wordBound
      ∧ c.reservedResultBytes + e.reservedResultBytes < wordBound
      ∧ c.tombstoneBytes + e.tombstoneBytes < wordBound
      ∧ c.liveRecords + e.liveCount < wordBound
      ∧ c.tombstoneRecords + e.tombstoneCount < wordBound
  | replace r => ∃ p, c.records.lookup r.record.keyDigest = some p
      ∧ (p.liveActualBytes ≤ c.actualBytes
        ∧ c.actualBytes - p.liveActualBytes + r.liveActualBytes < wordBound)
      ∧ (p.reservedResultBytes ≤ c.reservedResultBytes
        ∧ c.reservedResultBytes - p.reservedResultBytes + r.reservedResultBytes < wordBound)
      ∧ (p.tombstoneBytes ≤ c.tombstoneBytes
        ∧ c.tombstoneBytes - p.tombstoneBytes + r.tombstoneBytes < wordBound)
      ∧ (p.liveCount ≤ c.liveRecords ∧ c.liveRecords - p.liveCount + r.liveCount < wordBound)
      ∧ (p.tombstoneCount ≤ c.tombstoneRecords
        ∧ c.tombstoneRecords - p.tombstoneCount + r.tombstoneCount < wordBound)
  | remove e =>
      e.liveActualBytes ≤ c.actualBytes ∧ e.reservedResultBytes ≤ c.reservedResultBytes
      ∧ e.tombstoneBytes ≤ c.tombstoneBytes ∧ e.liveCount ≤ c.liveRecords
      ∧ e.tombstoneCount ≤ c.tombstoneRecords

end CatalogCommit

section ExactCommits

variable {c : ReceiptCatalog} {e p r : CatalogEntry}

/-- In range, the wrapping insertion is the plain one. -/
theorem commitCatalogInsert_eq (h : (CatalogCommit.insert e).InRange c) : commitCatalogInsert c e =
      { c with
        actualBytes := c.actualBytes + e.liveActualBytes
        reservedResultBytes := c.reservedResultBytes + e.reservedResultBytes
        tombstoneBytes := c.tombstoneBytes + e.tombstoneBytes
        liveRecords := c.liveRecords + e.liveCount
        tombstoneRecords := c.tombstoneRecords + e.tombstoneCount
        invocationIndex := c.invocationIndex.insert e.record.key.invocationId e.record.keyDigest
        reservedTaskIndex := c.reservedTaskIndex.insert e.record.key.reservedTaskId e.record.keyDigest
        records := c.records.insert e.record.keyDigest e.withoutResultBody } := by
  obtain ⟨ha, hr, ht, hl, hn⟩ := h
  simp only [commitCatalogInsert, withoutResultBody_liveActualBytes,
    withoutResultBody_reservedResultBytes, withoutResultBody_tombstoneBytes,
    withoutResultBody_isTombstone, withoutResultBody_key,
    withoutResultBody_keyDigest, wrappingAdd_of_lt ha, wrappingAdd_of_lt hr,
    wrappingAdd_of_lt ht]
  cases htomb : e.isTombstone <;> simp_all [liveCount, tombstoneCount, wrappingAdd_of_lt]

theorem commitCatalogRemove_eq (hc : c.Exact) (h : (CatalogCommit.remove e).InRange c) :
    commitCatalogRemove c e = { c with
        actualBytes := c.actualBytes - e.liveActualBytes
        reservedResultBytes := c.reservedResultBytes - e.reservedResultBytes
        tombstoneBytes := c.tombstoneBytes - e.tombstoneBytes
        liveRecords := c.liveRecords - e.liveCount
        tombstoneRecords := c.tombstoneRecords - e.tombstoneCount
        invocationIndex := c.invocationIndex.erase e.record.key.invocationId
        reservedTaskIndex := c.reservedTaskIndex.erase e.record.key.reservedTaskId
        records := c.records.erase e.record.keyDigest } := by
  obtain ⟨ha, hr, ht, hl, hn⟩ := h
  simp only [commitCatalogRemove, wrappingSub_of_le ha hc.actual_lt,
    wrappingSub_of_le hr hc.reserved_lt, wrappingSub_of_le ht hc.tombstone_lt]
  have hlive := hc.live_lt
  have htombs := hc.tombstones_lt
  cases htomb : e.isTombstone <;> simp_all [liveCount, tombstoneCount, wrappingSub_of_le]

theorem wrappingExchange_of_range {a b n : Nat} (ha : a < wordBound) (hb : b ≤ a)
    (hn : a - b + n < wordBound) : wrappingExchange a b n = a - b + n := by
  rw [wrappingExchange, wrappingSub_of_le hb ha, wrappingAdd_of_lt hn]

theorem commitCatalogReplace_eq (hc : c.Exact) (hp : c.records.lookup r.record.keyDigest = some p)
    (h : (CatalogCommit.replace r).InRange c) :
    commitCatalogReplace c r = { c with
        actualBytes := c.actualBytes - p.liveActualBytes + r.liveActualBytes
        reservedResultBytes := c.reservedResultBytes - p.reservedResultBytes + r.reservedResultBytes
        tombstoneBytes := c.tombstoneBytes - p.tombstoneBytes + r.tombstoneBytes
        liveRecords := c.liveRecords - p.liveCount + r.liveCount
        tombstoneRecords := c.tombstoneRecords - p.tombstoneCount + r.tombstoneCount
        records := c.records.insert r.record.keyDigest r.withoutResultBody } := by
  obtain ⟨q, hq, ⟨ha, ha'⟩, ⟨hr, hr'⟩, ⟨ht, ht'⟩, ⟨hl, hl'⟩, ⟨hn, hn'⟩⟩ := h
  rw [hp] at hq
  cases hq
  have hlive := hc.live_lt
  have htombs := hc.tombstones_lt
  have hbytes := r.tombstoneBytes_pos_iff
  simp only [commitCatalogReplace, withoutResultBody_keyDigest, hp,
    withoutResultBody_liveActualBytes, withoutResultBody_reservedResultBytes,
    withoutResultBody_tombstoneBytes, wrappingExchange_of_range hc.actual_lt ha ha',
    wrappingExchange_of_range hc.reserved_lt hr hr', wrappingExchange_of_range hc.tombstone_lt ht ht']
  -- The counters move only when exactly one of the two is a tombstone.
  cases hpt : p.isTombstone <;> cases hrt : r.isTombstone <;>
    simp_all [liveCount, tombstoneCount, wrappingSub_of_le, wrappingAdd_of_lt]

theorem exact_insert (hc : c.Exact) (hd : c.records.lookup e.record.keyDigest = none)
    (hi : c.invocationIndex.lookup e.record.key.invocationId = none)
    (ht : c.reservedTaskIndex.lookup e.record.key.reservedTaskId = none)
    (h : (CatalogCommit.insert e).InRange c) : (commitCatalogInsert c e).Exact := by
  rw [commitCatalogInsert_eq h]
  obtain ⟨hac, hrc, htc, hlc, hnc⟩ := h
  constructor
  case keyed =>
    intro d x hx
    rcases lookup_insert_cases hx with ⟨rfl, rfl⟩ | ⟨-, hold⟩
    · rfl
    · exact hc.keyed hold
  case bodyless =>
    intro d x hx
    rcases lookup_insert_cases hx with ⟨rfl, rfl⟩ | ⟨-, hold⟩
    · exact e.withoutResultBody_idem
    · exact hc.bodyless hold
  case invocations => exact hc.invocations.insert (v := e.withoutResultBody) hd hi
  case reservedTasks => exact hc.reservedTasks.insert (v := e.withoutResultBody) hd ht
  case actual => simp [total_insert_of_absent hd, hc.actual, Nat.add_comm]
  case reserved => simp [total_insert_of_absent hd, hc.reserved, Nat.add_comm]
  case tombstone => simp [total_insert_of_absent hd, hc.tombstone, Nat.add_comm]
  case live => simp [total_insert_of_absent hd, hc.live, Nat.add_comm]
  case tombstones => simp [total_insert_of_absent hd, hc.tombstones, Nat.add_comm]
  all_goals assumption

theorem inRange_remove (hc : c.Exact) (h : c.records.lookup e.record.keyDigest = some e) :
    (CatalogCommit.remove e).InRange c := by
  refine ⟨?_, ?_, ?_, ?_, ?_⟩
  · rw [hc.actual]
    exact le_total h
  · rw [hc.reserved]
    exact le_total h
  · rw [hc.tombstone]
    exact le_total h
  · rw [hc.live]
    exact le_total h
  · rw [hc.tombstones]
    exact le_total h

theorem exact_remove (hc : c.Exact) (h : c.records.lookup e.record.keyDigest = some e) :
    (commitCatalogRemove c e).Exact := by
  rw [commitCatalogRemove_eq hc (inRange_remove hc h)]
  have ha := total_erase (f := liveActualBytes) h
  have hr := total_erase (f := reservedResultBytes) h
  have ht := total_erase (f := tombstoneBytes) h
  have hl := total_erase (f := liveCount) h
  have hn := total_erase (f := tombstoneCount) h
  have lookup_kept : ∀ {d x}, (c.records.erase e.record.keyDigest).lookup d = some x →
      c.records.lookup d = some x := by
    intro d x hx
    by_cases hde : d = e.record.keyDigest
    · subst hde
      rw [lookup_erase] at hx
      cases hx
    · rwa [lookup_erase_ne hde] at hx
  constructor
  case keyed => exact fun hx => hc.keyed (lookup_kept hx)
  case bodyless => exact fun hx => hc.bodyless (lookup_kept hx)
  case invocations => exact hc.invocations.erase h
  case reservedTasks => exact hc.reservedTasks.erase h
  case actual => simp only [hc.actual]; omega
  case reserved => simp only [hc.reserved]; omega
  case tombstone => simp only [hc.tombstone]; omega
  case live => simp only [hc.live]; omega
  case tombstones => simp only [hc.tombstones]; omega
  case actual_lt => exact (Nat.sub_le _ _).trans_lt hc.actual_lt
  case reserved_lt => exact (Nat.sub_le _ _).trans_lt hc.reserved_lt
  case tombstone_lt => exact (Nat.sub_le _ _).trans_lt hc.tombstone_lt
  case live_lt => exact (Nat.sub_le _ _).trans_lt hc.live_lt
  case tombstones_lt => exact (Nat.sub_le _ _).trans_lt hc.tombstones_lt

theorem exact_replace (hc : c.Exact) (hp : c.records.lookup r.record.keyDigest = some p)
    (hkey : r.record.key = p.record.key) (h : (CatalogCommit.replace r).InRange c) :
    (commitCatalogReplace c r).Exact := by
  rw [commitCatalogReplace_eq hc hp h]
  obtain ⟨q, hq, ⟨ha, ha'⟩, ⟨hr, hr'⟩, ⟨ht, ht'⟩, ⟨hl, hl'⟩, ⟨hn, hn'⟩⟩ := h
  rw [hp] at hq
  cases hq
  have hasum := total_replace (f := liveActualBytes) (u := r.withoutResultBody) hp
  have hrsum :=
    total_replace (f := reservedResultBytes) (u := r.withoutResultBody) hp
  have htsum := total_replace (f := tombstoneBytes) (u := r.withoutResultBody) hp
  have hlsum := total_replace (f := liveCount) (u := r.withoutResultBody) hp
  have hnsum := total_replace (f := tombstoneCount) (u := r.withoutResultBody) hp
  simp only [withoutResultBody_liveActualBytes,
    withoutResultBody_reservedResultBytes, withoutResultBody_tombstoneBytes,
    withoutResultBody_liveCount, withoutResultBody_tombstoneCount]
    at hasum hrsum htsum hlsum hnsum
  constructor
  case keyed =>
    intro d x hx
    rcases lookup_insert_cases hx with ⟨rfl, rfl⟩ | ⟨-, hold⟩
    · rfl
    · exact hc.keyed hold
  case bodyless =>
    intro d x hx
    rcases lookup_insert_cases hx with ⟨rfl, rfl⟩ | ⟨-, hold⟩
    · exact r.withoutResultBody_idem
    · exact hc.bodyless hold
  case invocations => exact hc.invocations.replace hp (by simp [hkey])
  case reservedTasks => exact hc.reservedTasks.replace hp (by simp [hkey])
  case actual => simp only [hc.actual] at ha ⊢; omega
  case reserved => simp only [hc.reserved] at hr ⊢; omega
  case tombstone => simp only [hc.tombstone] at ht ⊢; omega
  case live => simp only [hc.live] at hl ⊢; omega
  case tombstones => simp only [hc.tombstones] at hn ⊢; omega
  all_goals assumption

end ExactCommits

section Validators

variable {c : ReceiptCatalog} {e r : CatalogEntry} {u : Unit}

/-- What an accepted insertion has established. -/
structure InsertAccepted (c : ReceiptCatalog) (e : CatalogEntry) : Prop where
  digest_absent : c.records.lookup e.record.keyDigest = none
  invocation_absent : c.invocationIndex.lookup e.record.key.invocationId = none
  reservedTask_absent : c.reservedTaskIndex.lookup e.record.key.reservedTaskId = none
  sequence_free : e.isTombstone = false → c.sequenceTaken e.record.mutationSequence none = false
  inRange : (CatalogCommit.insert e).InRange c
  fits : c.actualBytes + e.liveActualBytes + (c.reservedResultBytes + e.reservedResultBytes) < wordBound

theorem validateCatalogInsert_ok {recovering : Bool} :
    validateCatalogInsert c e recovering = .ok u ↔ InsertAccepted c e := by
  simp only [validateCatalogInsert, okOr_bind_eq_ok, refuseIf_bind_eq_ok,
    checkedAdd_eq_some, checkedAdd_eq_none, not_and, Bool.not_eq_true, Nat.not_le,
    contains_eq_false, isSome_eq_false_iff, isNone_iff_eq_none]
  constructor
  · rintro ⟨_, ⟨hl, -⟩, _, ⟨hn, -⟩, hd, hi, ht, hs, a, ⟨ha, rfl⟩, b, ⟨hb, rfl⟩, hab, _, ⟨htb, -⟩, -⟩
    exact ⟨hd, hi, ht, hs, ⟨ha, hb, htb, hl, hn⟩, hab⟩
  · intro h
    obtain ⟨ha, hb, htb, hl, hn⟩ := h.inRange
    exact ⟨_, ⟨hl, rfl⟩, _, ⟨hn, rfl⟩, h.digest_absent, h.invocation_absent, h.reservedTask_absent,
      h.sequence_free, _, ⟨ha, rfl⟩, _, ⟨hb, rfl⟩, h.fits, _, ⟨htb, rfl⟩, rfl⟩

/-- What an accepted replacement has established, with `p` the entry it replaces. -/
structure ReplaceAccepted (c : ReceiptCatalog) (e r : CatalogEntry) : Prop where
  holds : c.holds e.record.keyDigest e = true
  digest_eq : r.record.keyDigest = e.record.keyDigest
  key_eq : r.record.key = e.record.key
  sequence_free : r.isTombstone = false →
    c.sequenceTaken r.record.mutationSequence (some e.record.keyDigest) = false
  live : e.liveCount ≤ c.liveRecords ∧ c.liveRecords - e.liveCount + r.liveCount < wordBound
  actual : e.liveActualBytes ≤ c.actualBytes
    ∧ c.actualBytes - e.liveActualBytes + r.liveActualBytes < wordBound
  reserved : e.reservedResultBytes ≤ c.reservedResultBytes
    ∧ c.reservedResultBytes - e.reservedResultBytes + r.reservedResultBytes < wordBound
  fits : c.actualBytes - e.liveActualBytes + r.liveActualBytes
    + (c.reservedResultBytes - e.reservedResultBytes + r.reservedResultBytes) < wordBound
  tombstones : e.tombstoneCount ≤ c.tombstoneRecords
    ∧ c.tombstoneRecords - e.tombstoneCount + r.tombstoneCount < wordBound
  tombstone : e.tombstoneBytes ≤ c.tombstoneBytes
    ∧ c.tombstoneBytes - e.tombstoneBytes + r.tombstoneBytes < wordBound

theorem validateCatalogReplace_ok : validateCatalogReplace c e r = .ok u ↔ ReplaceAccepted c e r := by
  simp only [validateCatalogReplace, okOr_bind_eq_ok, refuseIf_bind_eq_ok,
    checkedExchange_eq_some, checkedAdd_eq_none, not_and, not_or, Bool.not_eq_true,
    Bool.not_eq_false, Nat.not_le, ne_eq, not_not]
  constructor
  · rintro ⟨hh, ⟨hd, hk⟩, hs, _, ⟨hl, hl', -⟩, a, ⟨ha, ha', rfl⟩, b, ⟨hb, hb', rfl⟩, hab, _,
      ⟨hn, hn', -⟩, _, ⟨ht, ht', -⟩, -⟩
    exact ⟨hh, hd, hk, hs, ⟨hl, hl'⟩, ⟨ha, ha'⟩, ⟨hb, hb'⟩, hab, ⟨hn, hn'⟩, ⟨ht, ht'⟩⟩
  · intro h
    exact ⟨h.holds, ⟨h.digest_eq, h.key_eq⟩, h.sequence_free, _, ⟨h.live.1, h.live.2, rfl⟩, _,
      ⟨h.actual.1, h.actual.2, rfl⟩, _, ⟨h.reserved.1, h.reserved.2, rfl⟩, h.fits, _,
      ⟨h.tombstones.1, h.tombstones.2, rfl⟩, _, ⟨h.tombstone.1, h.tombstone.2, rfl⟩, rfl⟩

theorem validateCatalogRemove_holds (h : validateCatalogRemove c e = .ok u) :
    c.holds e.record.keyDigest e = true := by
  simp only [validateCatalogRemove, refuseIf_bind_eq_ok, Bool.not_eq_false] at h
  exact h.1

/-- What the catalog says of an entry with a body it says of the entry it stores. -/
theorem ReplaceAccepted.inRange (h : ReplaceAccepted c e r) (hc : c.Exact) :
    (CatalogCommit.replace r).InRange c := by
  refine ⟨e.withoutResultBody, ?_, ?_⟩
  · rw [h.digest_eq]
    exact hc.lookup_of_holds h.holds
  · simpa using ⟨h.actual, h.reserved, h.tombstone, h.live, h.tombstones⟩

end Validators

/-- The identity checks of `reserve_batch`: nothing of the batch is catalogued yet, and no
two of its rows share an identity. -/
structure DistinctAdmissions (c : ReceiptCatalog) (entries : List CatalogEntry) : Prop where
  digest_absent : ∀ e ∈ entries, c.records.lookup e.record.keyDigest = none
  invocation_absent : ∀ e ∈ entries, c.invocationIndex.lookup e.record.key.invocationId = none
  reservedTask_absent : ∀ e ∈ entries, c.reservedTaskIndex.lookup e.record.key.reservedTaskId = none
  digests_nodup : (entries.map fun e => e.record.keyDigest).Nodup
  invocations_nodup : (entries.map fun e => e.record.key.invocationId).Nodup
  reservedTasks_nodup : (entries.map fun e => e.record.key.reservedTaskId).Nodup

/-- A change of the catalog together with the check the store makes before it. -/
inductive CatalogStep where
  | insert (entry : CatalogEntry) (recovering : Bool)
  | insertBatch (entries : List CatalogEntry)
  | replace (expected replacement : CatalogEntry)
  | replaceBatch (replacements : List (CatalogEntry × CatalogEntry))
  | remove (expected : CatalogEntry)

namespace CatalogStep

def Guarded (c : ReceiptCatalog) : CatalogStep → Prop
  | insert entry recovering => validateCatalogInsert c entry recovering = .ok ()
  | insertBatch entries =>
      DistinctAdmissions c entries ∧ validateCatalogInsertBatch c entries = .ok ()
  | replace expected replacement => validateCatalogReplace c expected replacement = .ok ()
  | replaceBatch replacements => validateCatalogReplaceBatch c replacements = .ok ()
  | remove expected => validateCatalogRemove c expected = .ok ()

def commits : CatalogStep → List CatalogCommit
  | insert entry _ => [.insert entry]
  | insertBatch entries => entries.map .insert
  | replace _ replacement => [.replace replacement]
  | replaceBatch replacements => replacements.map fun pair => .replace pair.2
  | remove expected => [.remove expected]

end CatalogStep

def runCommits (c : ReceiptCatalog) (commits : List CatalogCommit) : ReceiptCatalog :=
  commits.foldl CatalogCommit.apply c

/-- Every commit of the list is in range in the catalog its predecessors leave. -/
def CommitsInRange : ReceiptCatalog → List CatalogCommit → Prop
  | _, [] => True
  | c, commit :: rest => commit.InRange c ∧ CommitsInRange (commit.apply c) rest

inductive GuardedStep : ReceiptCatalog → ReceiptCatalog → Prop where
  | step {c : ReceiptCatalog} {s : CatalogStep} (h : s.Guarded c) :
      GuardedStep c (runCommits c s.commits)

/-- The catalogs guarded steps lead to from the empty one. -/
def ReachableCatalog (c : ReceiptCatalog) : Prop :=
  Relation.ReflTransGen GuardedStep empty c

section Steps

variable {c : ReceiptCatalog}

theorem admit_ok {t t' : CatalogTotals} (h : t.admit e = .ok t') :
    t.actualBytes + e.liveActualBytes < wordBound
    ∧ t.reservedResultBytes + e.reservedResultBytes < wordBound
    ∧ t.tombstoneBytes + e.tombstoneBytes < wordBound
    ∧ t.liveRecords + e.liveCount ≤ max t.liveRecords (wordBound - 1)
    ∧ t.tombstoneRecords + e.tombstoneCount ≤ max t.tombstoneRecords (wordBound - 1)
    ∧ t' = ⟨t.actualBytes + e.liveActualBytes, t.reservedResultBytes + e.reservedResultBytes,
        t.tombstoneBytes + e.tombstoneBytes, t.liveRecords + e.liveCount,
        t.tombstoneRecords + e.tombstoneCount⟩ := by
  unfold CatalogTotals.admit at h
  cases htomb : e.isTombstone
  case false =>
    simp only [htomb, Bool.false_eq_true, if_false, bind_eq_ok, okOr_eq_ok, checkedAdd_eq_some] at h
    obtain ⟨_, ⟨hn, rfl⟩, _, ⟨⟩, _, ⟨ha, rfl⟩, _, ⟨hb, rfl⟩, _, ⟨ht, rfl⟩, he⟩ := h
    cases he
    simp only [liveCount, tombstoneCount, htomb]
    refine ⟨ha, hb, ht, ?_, ?_, rfl⟩
    · simp only [Bool.false_eq_true, if_false]; omega
    · simp
  case true =>
    simp only [htomb, if_true, bind_eq_ok, okOr_eq_ok, checkedAdd_eq_some] at h
    obtain ⟨_, ⟨hn, rfl⟩, _, ⟨⟩, _, ⟨ha, rfl⟩, _, ⟨hb, rfl⟩, _, ⟨ht, rfl⟩, he⟩ := h
    cases he
    simp only [liveCount, tombstoneCount, htomb]
    refine ⟨ha, hb, ht, ?_, ?_, rfl⟩
    · simp
    · simp only [if_true]; omega

theorem exchange_ok {t t' : CatalogTotals} {e r : CatalogEntry} (h : t.exchange e r = .ok t') :
    (e.liveActualBytes ≤ t.actualBytes
      ∧ t.actualBytes - e.liveActualBytes + r.liveActualBytes < wordBound)
    ∧ (e.reservedResultBytes ≤ t.reservedResultBytes
      ∧ t.reservedResultBytes - e.reservedResultBytes + r.reservedResultBytes < wordBound)
    ∧ (e.tombstoneBytes ≤ t.tombstoneBytes
      ∧ t.tombstoneBytes - e.tombstoneBytes + r.tombstoneBytes < wordBound)
    ∧ (e.liveCount ≤ t.liveRecords ∧ t.liveRecords - e.liveCount + r.liveCount < wordBound)
    ∧ (e.tombstoneCount ≤ t.tombstoneRecords
      ∧ t.tombstoneRecords - e.tombstoneCount + r.tombstoneCount < wordBound)
    ∧ t' = ⟨t.actualBytes - e.liveActualBytes + r.liveActualBytes,
        t.reservedResultBytes - e.reservedResultBytes + r.reservedResultBytes,
        t.tombstoneBytes - e.tombstoneBytes + r.tombstoneBytes,
        t.liveRecords - e.liveCount + r.liveCount,
        t.tombstoneRecords - e.tombstoneCount + r.tombstoneCount⟩ := by
  simp only [CatalogTotals.exchange, bind_eq_ok, okOr_eq_ok, checkedExchange_eq_some] at h
  obtain ⟨_, ⟨hl, hl', rfl⟩, _, ⟨hn, hn', rfl⟩, _, ⟨ha, ha', rfl⟩, _, ⟨hb, hb', rfl⟩, _,
    ⟨ht, ht', rfl⟩, he⟩ := h
  cases he
  exact ⟨⟨ha, ha'⟩, ⟨hb, hb'⟩, ⟨ht, ht'⟩, ⟨hl, hl'⟩, ⟨hn, hn'⟩, rfl⟩

/-- The rows still to come stay distinct from what one insertion adds. -/
theorem DistinctAdmissions.tail {rest : List CatalogEntry}
    (h : DistinctAdmissions c (e :: rest)) (hr : (CatalogCommit.insert e).InRange c) :
    DistinctAdmissions (commitCatalogInsert c e) rest := by
  rw [commitCatalogInsert_eq hr]
  have hd := nodup_cons.mp h.digests_nodup
  have hi := nodup_cons.mp h.invocations_nodup
  have ht := nodup_cons.mp h.reservedTasks_nodup
  refine ⟨?_, ?_, ?_, hd.2, hi.2, ht.2⟩
  · intro x hx
    have hne : x.record.keyDigest ≠ e.record.keyDigest := fun he =>
      hd.1 (mem_map.mpr ⟨x, hx, he⟩)
    rw [lookup_insert_of_ne _ hne]
    exact h.digest_absent x (mem_cons_of_mem _ hx)
  · intro x hx
    have hne : x.record.key.invocationId ≠ e.record.key.invocationId := fun he =>
      hi.1 (mem_map.mpr ⟨x, hx, he⟩)
    rw [lookup_insert_of_ne _ hne]
    exact h.invocation_absent x (mem_cons_of_mem _ hx)
  · intro x hx
    have hne : x.record.key.reservedTaskId ≠ e.record.key.reservedTaskId := fun he =>
      ht.1 (mem_map.mpr ⟨x, hx, he⟩)
    rw [lookup_insert_of_ne _ hne]
    exact h.reservedTask_absent x (mem_cons_of_mem _ hx)

/-- The validator's own totals are the counters the commits leave, row after row. -/
theorem insertBatch_run {c₀ : ReceiptCatalog} {entries : List CatalogEntry} {seen : List Nat}
    {t : CatalogTotals} (hc : c.Exact) (hd : DistinctAdmissions c entries)
    (h : insertBatchLoop c₀ entries seen c.toCatalogTotals = .ok t) :
    CommitsInRange c (entries.map .insert)
    ∧ (runCommits c (entries.map .insert)).Exact
    ∧ (runCommits c (entries.map .insert)).toCatalogTotals = t := by
  -- The catalog advances with the totals; the loop's own lookups are in the catalog it started from.
  induction entries generalizing c seen with
  | nil =>
    cases h
    exact ⟨trivial, hc, rfl⟩
  | cons e rest ih =>
    simp only [insertBatchLoop, refuseIf_bind_eq_ok] at h
    obtain ⟨-, -, -, -, h⟩ := h
    obtain ⟨t', hadmit, hrest⟩ := bind_eq_ok.mp h
    obtain ⟨ha, hb, ht, hl, hn, rfl⟩ := admit_ok hadmit
    have hlive := hc.live_lt
    have htombs := hc.tombstones_lt
    have hrange : (CatalogCommit.insert e).InRange c := ⟨ha, hb, ht, by omega, by omega⟩
    have hexact := exact_insert hc (hd.digest_absent e (by simp)) (hd.invocation_absent e (by simp))
        (hd.reservedTask_absent e (by simp)) hrange
    have htotals : (commitCatalogInsert c e).toCatalogTotals =
        ⟨c.actualBytes + e.liveActualBytes, c.reservedResultBytes + e.reservedResultBytes,
          c.tombstoneBytes + e.tombstoneBytes, c.liveRecords + e.liveCount,
          c.tombstoneRecords + e.tombstoneCount⟩ := by
      rw [commitCatalogInsert_eq hrange]
    rw [← htotals] at hrest
    obtain ⟨hin, hex, heq⟩ := ih hexact (hd.tail hrange) hrest
    exact ⟨⟨hrange, hin⟩, hex, heq⟩

/-- Distinct digests keep the entries the rest of a batch expects where they are. -/
theorem holds_commitReplace {d : ReceiptKeyDigest} {p r x : CatalogEntry}
    (hc : c.Exact) (hp : c.records.lookup r.record.keyDigest = some p)
    (hr : (CatalogCommit.replace r).InRange c) (hne : d ≠ r.record.keyDigest) :
    (commitCatalogReplace c r).holds d x = c.holds d x := by
  rw [commitCatalogReplace_eq hc hp hr]
  simp only [holds, lookup_insert_of_ne _ hne]

theorem replaceBatch_run {c₀ : ReceiptCatalog} {pairs : List (CatalogEntry × CatalogEntry)}
    {digests : List ReceiptKeyDigest} {sequences : List Nat} {t : CatalogTotals} (hc : c.Exact)
    (hsame : ∀ d, d ∉ digests → ∀ x, c₀.holds d x = c.holds d x)
    (h : replaceBatchLoop c₀ pairs digests sequences c.toCatalogTotals = .ok t) :
    CommitsInRange c (pairs.map fun pair => .replace pair.2)
    ∧ (runCommits c (pairs.map fun pair => .replace pair.2)).Exact
    ∧ (runCommits c (pairs.map fun pair => .replace pair.2)).toCatalogTotals = t := by
  -- Digests not yet visited still hold what the validator saw in the original catalog.
  induction pairs generalizing c digests sequences with
  | nil =>
    cases h
    exact ⟨trivial, hc, rfl⟩
  | cons pair rest ih =>
    obtain ⟨e, r⟩ := pair
    simp only [replaceBatchLoop, refuseIf_bind_eq_ok, not_or, ne_eq, not_not, Bool.not_eq_false] at h
    obtain ⟨hholds, ⟨hdig, hkey, hfresh⟩, -, h⟩ := h
    obtain ⟨t', hexchange, hrest⟩ := bind_eq_ok.mp h
    obtain ⟨ha, hb, ht, hl, hn, rfl⟩ := exchange_ok hexchange
    have hp : c.records.lookup r.record.keyDigest = some e.withoutResultBody := by
      rw [hdig]
      exact hc.lookup_of_holds (hsame _ hfresh e ▸ hholds)
    have hrange : (CatalogCommit.replace r).InRange c :=
      ⟨_, hp, by simpa using ⟨ha, hb, ht, hl, hn⟩⟩
    have hexact := exact_replace hc hp hkey hrange
    have htotals : (commitCatalogReplace c r).toCatalogTotals =
        ⟨c.actualBytes - e.liveActualBytes + r.liveActualBytes,
          c.reservedResultBytes - e.reservedResultBytes + r.reservedResultBytes,
          c.tombstoneBytes - e.tombstoneBytes + r.tombstoneBytes,
          c.liveRecords - e.liveCount + r.liveCount,
          c.tombstoneRecords - e.tombstoneCount + r.tombstoneCount⟩ := by
      rw [commitCatalogReplace_eq hc hp hrange]
      simp
    rw [← htotals] at hrest
    have hsame' : ∀ d, d ∉ e.record.keyDigest :: digests → ∀ x,
        c₀.holds d x = (commitCatalogReplace c r).holds d x := by
      intro d hd x
      rw [mem_cons, not_or] at hd
      rw [holds_commitReplace hc hp hrange (hdig ▸ hd.1)]
      exact hsame d hd.2 x
    obtain ⟨hin, hex, heq⟩ := ih hexact hsame' hrest
    exact ⟨⟨hrange, hin⟩, hex, heq⟩

/-- One guarded step keeps the representation and stays in range. -/
theorem guarded_represents {s : CatalogStep} (hc : c.Represents) (h : s.Guarded c) :
    CommitsInRange c s.commits ∧ (runCommits c s.commits).Represents := by
  cases s with
  | insert e recovering =>
    have ha := validateCatalogInsert_ok.mp h
    refine ⟨⟨ha.inRange, trivial⟩, ?_, ?_⟩
    · exact exact_insert hc.toExact ha.digest_absent ha.invocation_absent ha.reservedTask_absent
        ha.inRange
    · change (commitCatalogInsert c e).actualBytes + (commitCatalogInsert c e).reservedResultBytes < _
      rw [commitCatalogInsert_eq ha.inRange]
      exact ha.fits
  | insertBatch entries =>
    obtain ⟨hd, hv⟩ := h
    obtain ⟨t, hloop, hfits⟩ := bind_eq_ok.mp hv
    rw [refuseIf_eq_ok, checkedAdd_eq_none, Nat.not_le] at hfits
    obtain ⟨hin, hex, heq⟩ := insertBatch_run hc.toExact hd hloop
    exact ⟨hin, hex, heq ▸ hfits⟩
  | replace e r =>
    have ha := validateCatalogReplace_ok.mp h
    have hrange := ha.inRange hc.toExact
    have hp := ha.digest_eq ▸ hc.toExact.lookup_of_holds ha.holds
    refine ⟨⟨hrange, trivial⟩, exact_replace hc.toExact hp ha.key_eq hrange, ?_⟩
    change (commitCatalogReplace c r).actualBytes + (commitCatalogReplace c r).reservedResultBytes < _
    rw [commitCatalogReplace_eq hc.toExact hp hrange]
    simpa using ha.fits
  | replaceBatch pairs =>
    obtain ⟨t, hloop, hfits⟩ := bind_eq_ok.mp h
    rw [refuseIf_eq_ok, checkedAdd_eq_none, Nat.not_le] at hfits
    obtain ⟨hin, hex, heq⟩ := replaceBatch_run hc.toExact (fun _ _ _ => rfl) hloop
    exact ⟨hin, hex, heq ▸ hfits⟩
  | remove e =>
    have hl := hc.toExact.lookup_of_holds (validateCatalogRemove_holds h)
    have hrange := inRange_remove hc.toExact (e := e.withoutResultBody) hl
    have hrange' : (CatalogCommit.remove e).InRange c := by simpa [CatalogCommit.InRange] using hrange
    have hsame : commitCatalogRemove c e = commitCatalogRemove c e.withoutResultBody := by
      simp [commitCatalogRemove]
    refine ⟨⟨hrange', trivial⟩, ?_, ?_⟩
    · change (commitCatalogRemove c e).Exact
      exact hsame ▸ exact_remove hc.toExact hl
    · change (commitCatalogRemove c e).actualBytes + (commitCatalogRemove c e).reservedResultBytes < _
      rw [commitCatalogRemove_eq hc.toExact hrange']
      have := hc.fits
      simp only
      omega

theorem insert_step (hc : c.Represents) (h : validateCatalogInsert c e false = .ok ()) :
    (CatalogCommit.insert e).InRange c ∧ (commitCatalogInsert c e).Represents := by
  have hguarded : (CatalogStep.insert e false).Guarded c := h
  obtain ⟨⟨hrange, -⟩, hrepresents⟩ := guarded_represents hc hguarded
  exact ⟨hrange, hrepresents⟩

theorem replace_step (hc : c.Represents) (h : validateCatalogReplace c e r = .ok ()) :
    (CatalogCommit.replace r).InRange c ∧ (commitCatalogReplace c r).Represents := by
  have hguarded : (CatalogStep.replace e r).Guarded c := h
  obtain ⟨⟨hrange, -⟩, hrepresents⟩ := guarded_represents hc hguarded
  exact ⟨hrange, hrepresents⟩

theorem remove_step (hc : c.Represents) (h : validateCatalogRemove c e = .ok ()) :
    (commitCatalogRemove c e).Represents := by
  have hguarded : (CatalogStep.remove e).Guarded c := h
  exact (guarded_represents hc hguarded).2

end Steps

theorem ReachableCatalog.represents {c : ReceiptCatalog} (h : ReachableCatalog c) : c.Represents := by
  induction h with
  | refl => exact empty_represents
  | tail _ hstep ih =>
    obtain ⟨hg⟩ := hstep
    exact (guarded_represents ih hg).2

/-- Reachable catalogs index and count exactly what they hold, and no guarded step from one
leaves the range of a machine word. -/
theorem reachable_catalog_exact_and_in_range {c : ReceiptCatalog} (h : ReachableCatalog c) :
    c.Represents ∧ ∀ s : CatalogStep, s.Guarded c → CommitsInRange c s.commits :=
  ⟨h.represents, fun _ hg => (guarded_represents h.represents hg).1⟩

/-- A family of receipts that share no identity. -/
def numberedKey (n : Nat) : ReceiptKey := ⟨n, n, 0, .view, 0, 0⟩

/-- An acknowledged tombstone of the largest size a tombstone row may have. -/
def numberedTombstone (n : Nat) : CatalogEntry where
  record :=
    { schemaVersion := receiptRecordSchemaVersion
      mutationSequence := 0
      recordVersion := .tombstoneMarker
      key := numberedKey n
      keyDigest := n
      lifecycle := .acknowledgedTombstone 0 0 }
  encodedBytes := maxAcknowledgedTombstoneBytes
  encoded_pos := by decide
  encoded_le := by decide

theorem reachable_catalog_exact_with_one_tombstone :
    let c := runCommits .empty [.insert (numberedTombstone 1)]
    c.Represents ∧ ∀ s : CatalogStep, s.Guarded c → CommitsInRange c s.commits := by
  refine reachable_catalog_exact_and_in_range (Relation.ReflTransGen.single ?_)
  have hg : (CatalogStep.insert (numberedTombstone 1) false).Guarded .empty := rfl
  exact GuardedStep.step hg

end Unica.Receipt
