import Unica.Link.Format
import Unica.Link.Store

/-!
# Sound link catalogs

A sound catalog keeps every link under the digest of its key, indexed by its Task and by
its invocation, with the length of its own JSON and a sequence the catalog has reached.
Reading the snapshot of a sound catalog gives the catalog back.
-/

namespace Unica.Link

open Lib Receipt LinkCatalog Finmap StoredEntry List Table Option ReceiptKey Except

variable [ReceiptCodec]

structure LinkCatalog.Sound (c : LinkCatalog) : Prop where
  keyed : ∀ d e, c.entries.lookup d = some e → e.keyDigest = d
  stamped : ∀ d e, c.entries.lookup d = some e → e.Stamped
  below : ∀ d e, c.entries.lookup d = some e → e.header.mutationSequence ≤ c.mutationSequence
  tasks : Table.Indexes c.taskIndex c.entries fun e => e.header.key.reservedTaskId
  invocations : Table.Indexes c.invocationIndex c.entries fun e => e.header.key.invocationId

variable {c c' : LinkCatalog} {entry : LinkEntry} {d : ReceiptKeyDigest} {seen : List ReceiptKeyDigest}

namespace LinkCatalog

theorem sound_empty : empty.Sound :=
  ⟨fun _ _ h => by simp [empty] at h, fun _ _ h => by simp [empty] at h, fun _ _ h => by simp [empty] at h,
    .empty, .empty⟩

theorem not_taken_iff {key : ReceiptKey} : ¬ c.taken key d ↔
    (∀ k, c.taskIndex.lookup key.reservedTaskId = some k → k = d)
      ∧ ∀ k, c.invocationIndex.lookup key.invocationId = some k → k = d := by
  simp [taken]

theorem insertExact_eq_ok : c.insertExact entry = .ok c' ↔
    ¬ c.taken entry.header.key entry.keyDigest ∧ c' = c.put entry := by
  rw [insertExact, refuseIf_bind_eq_ok]
  exact and_congr_right fun _ => ⟨fun h => (ok.inj h).symm, fun h => congrArg ok h.symm⟩

@[simp] theorem lookup_put : (c.put entry).entries.lookup entry.keyDigest = some entry :=
  lookup_insert _

theorem lookup_put_of_ne (h : d ≠ entry.keyDigest) : (c.put entry).entries.lookup d = c.entries.lookup d :=
  lookup_insert_of_ne _ h

/-- Writing a link over none or over a link of the same key. -/
theorem Sound.put (h : c.Sound) (hfree : ¬ c.taken entry.header.key entry.keyDigest)
    (hstamped : entry.Stamped) (hbelow : entry.header.mutationSequence ≤ c.mutationSequence)
    (hold : ∀ old, c.entries.lookup entry.keyDigest = some old → old.header.key = entry.header.key) :
    (c.put entry).Sound := by
  obtain ⟨htask, hinvocation⟩ := not_taken_iff.mp hfree
  have hcase : ∀ d e, (c.put entry).entries.lookup d = some e →
      (d = entry.keyDigest ∧ e = entry) ∨ c.entries.lookup d = some e :=
    fun _ _ he => (lookup_insert_cases he).imp_right And.right
  refine ⟨?_, ?_, ?_, ?_, ?_⟩
  · intro d e he
    rcases hcase d e he with ⟨rfl, rfl⟩ | he
    · rfl
    · exact h.keyed d e he
  · intro d e he
    rcases hcase d e he with ⟨rfl, rfl⟩ | he
    · exact hstamped
    · exact h.stamped d e he
  · intro d e he
    rcases hcase d e he with ⟨rfl, rfl⟩ | he
    · exact hbelow
    · exact h.below d e he
  · exact h.tasks.put htask fun old hlookup => congrArg reservedTaskId (hold old hlookup)
  · exact h.invocations.put hinvocation fun old hlookup => congrArg invocationId (hold old hlookup)

/-- A later sequence keeps a catalog sound. -/
theorem Sound.advance (h : c.Sound) {sequence : Nat} (hle : c.mutationSequence ≤ sequence) :
    Sound { c with mutationSequence := sequence } :=
  ⟨h.keyed, h.stamped, fun d e he => Nat.le_trans (h.below d e he) hle, h.tasks, h.invocations⟩

/-- A link under its digest holds the identities of its key. -/
theorem Sound.not_taken (h : c.Sound) (he : c.entries.lookup entry.keyDigest = some entry) :
    ¬ c.taken entry.header.key entry.keyDigest := by
  refine not_taken_iff.mpr ⟨fun k hk => ?_, fun k hk => ?_⟩
  · rw [h.tasks.lookup_of he] at hk
    exact (some.inj hk).symm
  · rw [h.invocations.lookup_of he] at hk
    exact (some.inj hk).symm

theorem removeExactPending_eq_ok {expected : TaskRetirementPendingReceipt} (h : c.Sound) :
    c.removeExactPending expected = .ok c' ↔ c.entries.lookup (receiptKeyDigest expected.record.key)
          = some (.link (.taskRetirementPending expected))
        ∧ c' = { c with
          entries := c.entries.erase (receiptKeyDigest expected.record.key)
          taskIndex := c.taskIndex.erase expected.record.key.reservedTaskId
          invocationIndex := c.invocationIndex.erase expected.record.key.invocationId } := by
  rw [removeExactPending, okOr_bind_eq_ok, ← expected.task_eq, ← expected.invocation_eq]
  constructor
  · rintro ⟨current, hcurrent, hrest⟩
    obtain ⟨hsame, hrest⟩ := refuseIf_bind_eq_ok.mp hrest
    obtain ⟨-, hrest⟩ := refuseIf_bind_eq_ok.mp hrest
    rw [not_ne_iff.mp hsame] at hcurrent
    exact ⟨hcurrent, (ok.inj hrest).symm⟩
  · rintro ⟨hcurrent, rfl⟩
    refine ⟨_, hcurrent, refuseIf_bind_eq_ok.mpr ⟨not_ne_iff.mpr rfl, refuseIf_bind_eq_ok.mpr ⟨?_, rfl⟩⟩⟩
    have htask := h.tasks.lookup_of hcurrent
    have hinvocation := h.invocations.lookup_of hcurrent
    have hkey : (LinkEntry.link (.taskRetirementPending expected)).header = expected.record := rfl
    rw [hkey, ← expected.task_eq] at htask
    rw [hkey, ← expected.invocation_eq] at hinvocation
    rintro (hne | hne)
    · exact hne htask
    · exact hne hinvocation

theorem Sound.erase (h : c.Sound) (he : c.entries.lookup d = some entry) :
    Sound { c with
      entries := c.entries.erase d
      taskIndex := c.taskIndex.erase entry.header.key.reservedTaskId
      invocationIndex := c.invocationIndex.erase entry.header.key.invocationId } := by
  have hkeep : ∀ d' e, (c.entries.erase d).lookup d' = some e → c.entries.lookup d' = some e := by
    intro d' e he'
    by_cases hd : d' = d
    · rw [hd, lookup_erase] at he'
      cases he'
    · rwa [lookup_erase_ne hd] at he'
  exact ⟨fun d' e he' => h.keyed d' e (hkeep d' e he'), fun d' e he' => h.stamped d' e (hkeep d' e he'),
    fun d' e he' => h.below d' e (hkeep d' e he'), h.tasks.erase he, h.invocations.erase he⟩

end LinkCatalog

/-! ## Reading a snapshot back -/

/-- What a reader has built once it was given the links under the keys `seen`. -/
structure Rebuilds (c : LinkCatalog) (seen : List ReceiptKeyDigest) (built : LinkCatalog) : Prop where
  entries : ∀ d, built.entries.lookup d = if d ∈ seen then c.entries.lookup d else none
  tasks : ∀ t, built.taskIndex.lookup t = (c.taskIndex.lookup t).filter (· ∈ seen)
  invocations : ∀ i, built.invocationIndex.lookup i = (c.invocationIndex.lookup i).filter (· ∈ seen)

theorem rebuilds_empty (c : LinkCatalog) : Rebuilds c [] .empty := by
  refine ⟨fun d => ?_, fun t => ?_, fun i => ?_⟩ <;> simp [empty]

/-- The index of the catalog under construction, one link later. -/
theorem Rebuilds.index {I : Type} [DecidableEq I] {idx built : Table I ReceiptKeyDigest}
    {f : LinkEntry → I} (hidx : Indexes idx c.entries f)
    (hbuilt : ∀ i, built.lookup i = (idx.lookup i).filter (· ∈ seen))
    (he : c.entries.lookup d = some entry) (i : I) :
    (built.insert (f entry) d).lookup i = (idx.lookup i).filter (· ∈ d :: seen) := by
  by_cases hi : i = f entry
  · rw [hi, hidx.lookup_of he]
    simp [Option.filter]
  · rw [lookup_insert_of_ne _ hi, hbuilt]
    cases hlookup : idx.lookup i with
    | none => rfl
    | some k =>
      have hk : k ≠ d := by
        rintro rfl
        exact hi (hidx.injective hlookup (hidx.lookup_of he))
      simp [Option.filter, hk]

theorem Rebuilds.step (h : c.Sound) {built : LinkCatalog}
    (hbuilt : Rebuilds c seen built) (hnew : d ∉ seen) (he : c.entries.lookup d = some entry) :
    ∃ built', readEntry built (fromCatalogEntry entry) = .ok built'
      ∧ Rebuilds c (d :: seen) built' := by
  obtain rfl := h.keyed d entry he
  have hstamped := h.stamped _ _ he
  have hsize := hstamped ▸ entry.header.bytes_le
  have habsent : built.entries.lookup entry.keyDigest = none := by
    rw [hbuilt.entries, if_neg hnew]
  have hfree : ¬ built.taken entry.header.key entry.keyDigest := by
    refine not_taken_iff.mpr ⟨fun k hk => ?_, fun k hk => ?_⟩
    · rw [hbuilt.tasks, h.tasks.lookup_of he] at hk
      exact (some.inj ((filter_eq_some_iff.mp hk).1)).symm
    · rw [hbuilt.invocations, h.invocations.lookup_of he] at hk
      exact (some.inj ((filter_eq_some_iff.mp hk).1)).symm
  refine ⟨built.put entry, ?_, ?_, ?_, ?_⟩
  · refine bind_eq_ok.mpr ⟨(), ensureRecordSize_eq_ok.mpr hsize, ?_⟩
    refine bind_eq_ok.mpr ⟨entry, intoCatalogEntry_fromCatalogEntry hstamped, ?_⟩
    refine refuseIf_bind_eq_ok.mpr ⟨by simp [habsent], ?_⟩
    exact insertExact_eq_ok.mpr ⟨hfree, rfl⟩
  · intro d'
    by_cases hd : d' = entry.keyDigest
    · subst hd
      rw [lookup_put, if_pos mem_cons_self, he]
    · rw [lookup_put_of_ne hd, hbuilt.entries]
      simp [hd]
  · exact index h.tasks hbuilt.tasks he
  · exact index h.invocations hbuilt.invocations he

/-- The loop over the snapshot's array. -/
theorem Rebuilds.fold (h : c.Sound) : ∀ (keys seen : List ReceiptKeyDigest) built,
    Rebuilds c seen built → keys.Nodup → (∀ d ∈ keys, d ∉ seen) → (∀ d ∈ keys, (c.entries.lookup d).isSome) →
    ∃ built', (keys.filterMap fun d => (c.entries.lookup d).map fromCatalogEntry).foldlM
        readEntry built = .ok built' ∧ Rebuilds c (keys.reverse ++ seen) built' := by
  intro keys
  induction keys with
  | nil =>
    intro seen built hbuilt _ _ _
    exact ⟨built, rfl, hbuilt⟩
  | cons d keys ih =>
    intro seen built hbuilt hnodup hfresh hsome
    obtain ⟨hd, hkeys⟩ := nodup_cons.mp hnodup
    obtain ⟨entry, he⟩ := isSome_iff_exists.mp (hsome d mem_cons_self)
    obtain ⟨next, hread, hnext⟩ := hbuilt.step h (hfresh d mem_cons_self) he
    have hfresh' : ∀ d' ∈ keys, d' ∉ d :: seen := by
      intro d' hmem hseen
      rcases mem_cons.mp hseen with rfl | hseen
      · exact hd hmem
      · exact hfresh d' (mem_cons_of_mem _ hmem) hseen
    obtain ⟨final, hfold, hfinal⟩ := ih (d :: seen) next hnext hkeys hfresh' fun d' hmem =>
      hsome d' (mem_cons_of_mem _ hmem)
    refine ⟨final, ?_, ?_⟩
    · rw [filterMap_cons_some (by rw [he]; rfl)]
      exact bind_eq_ok.mpr ⟨next, hread, hfold⟩
    · simpa using hfinal

namespace LinkCatalog

/-- The snapshot with its links in a given order. The order the source writes them in is some order
of the keys: it sorts what it gets from its hash map. -/
def storedIn (c : LinkCatalog) (order : List ReceiptKeyDigest) : StoredCatalog where
  mutationSequence := c.mutationSequence
  entries := order.filterMap fun keyDigest => (c.entries.lookup keyDigest).map fromCatalogEntry

/-- A list of the keys of a catalog, each once. -/
structure Enumerates (c : LinkCatalog) (order : List ReceiptKeyDigest) : Prop where
  nodup : order.Nodup
  mem_iff : ∀ d, d ∈ order ↔ (c.entries.lookup d).isSome = true

theorem enumerates_sortedKeys (c : LinkCatalog) : c.Enumerates c.entries.sortedKeys :=
  ⟨nodup_sortedKeys _, fun _ => by rw [mem_sortedKeys, isSome_iff_exists]⟩

/-- **Round trip.** A snapshot of a sound catalog, in any order, is read as that catalog. -/
theorem Sound.read_storedIn (h : c.Sound) {order : List ReceiptKeyDigest} (horder : c.Enumerates order) :
    (c.storedIn order).read = .ok c := by
  obtain ⟨built, hfold, hbuilt⟩ := Rebuilds.fold h order [] .empty (rebuilds_empty c) horder.nodup
    (fun _ _ => not_mem_nil) fun d hd => (horder.mem_iff d).mp hd
  rw [append_nil] at hbuilt
  have hmem : ∀ d v, c.entries.lookup d = some v → d ∈ order.reverse := fun d v hv =>
    mem_reverse.mpr ((horder.mem_iff d).mpr (by rw [hv]; rfl))
  have hentries : built.entries = c.entries := by
    refine ext_lookup fun d => ?_
    rw [hbuilt.entries]
    split
    · rfl
    · cases hlookup : c.entries.lookup d with
      | none => rfl
      | some v => exact absurd (hmem d v hlookup) ‹_›
  have hindex : ∀ {I : Type} [DecidableEq I] {idx built : Table I ReceiptKeyDigest} {f : LinkEntry → I},
      Indexes idx c.entries f →
      (∀ i, built.lookup i = (idx.lookup i).filter (· ∈ order.reverse)) → built = idx := by
    intro I _ idx built f hidx hlookup
    refine ext_lookup fun i => ?_
    rw [hlookup]
    cases hi : idx.lookup i with
    | none => rfl
    | some k =>
      obtain ⟨v, hv, -⟩ := (hidx i k).mp hi
      have hk := hmem k v hv
      simp [Option.filter, hk]
  refine bind_eq_ok.mpr ⟨built, hfold, refuseIf_bind_eq_ok.mpr ⟨?_, ?_⟩⟩
  · rw [existsValue_iff]
    rintro ⟨d, e, he, hlt⟩
    rw [hentries] at he
    exact absurd (h.below d e he) (Nat.not_le.mpr hlt)
  · have htasks := hindex h.tasks hbuilt.tasks
    have hinvocations := hindex h.invocations hbuilt.invocations
    rw [hentries, htasks, hinvocations]
    rfl

theorem Sound.read_stored (h : c.Sound) : c.stored.read = .ok c :=
  h.read_storedIn c.enumerates_sortedKeys

end LinkCatalog

end Unica.Link
