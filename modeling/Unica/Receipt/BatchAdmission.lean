import Unica.Receipt.CatalogInvariant
import Unica.Task.Record

/-!
# Batch validation and one-at-a-time validation

The batch validators look every row up in the catalog they are given, keep totals of
their own and compare the combined byte total once, behind the last row. Validating
and committing the rows one after another looks each of them up in the catalog its
predecessors leave.
-/

namespace Unica.Receipt

open Lib CatalogEntry ReceiptCatalog List CatalogCommit CatalogTotals Table Option

/-- Validate and commit the members of a list one after another. -/
def oneByOne {β : Type} (validate : ReceiptCatalog → β → Except ReceiptLedgerError Unit)
    (commit : β → CatalogCommit) (c : ReceiptCatalog) : List β → Except ReceiptLedgerError ReceiptCatalog
  | [] => pure c
  | b :: rest => do
      validate c b
      oneByOne validate commit ((commit b).apply c) rest

def insertOneByOne : ReceiptCatalog → List CatalogEntry → Except ReceiptLedgerError ReceiptCatalog :=
  oneByOne (fun c e => validateCatalogInsert c e false) .insert

def replaceOneByOne : ReceiptCatalog → List (CatalogEntry × CatalogEntry) → Except ReceiptLedgerError ReceiptCatalog :=
  oneByOne (fun c pair => validateCatalogReplace c pair.1 pair.2) fun pair => .replace pair.2

variable {c c₀ c' : ReceiptCatalog} {e r : CatalogEntry} {t : CatalogTotals} {sequences : List Nat}
  {rest : List (CatalogEntry × CatalogEntry)} {digests : List ReceiptKeyDigest}
  {entries : List CatalogEntry}

/-- The commits of a sequence that never fails are in range and keep the representation. -/
theorem oneByOne_ok {β : Type} {validate : ReceiptCatalog → β → Except ReceiptLedgerError Unit}
    {commit : β → CatalogCommit}
    (members : List β) (hc : c.Represents) (h : oneByOne validate commit c members = .ok c')
    (hstep : ∀ {c b}, c.Represents → validate c b = .ok () →
      (commit b).InRange c ∧ ((commit b).apply c).Represents) :
    c' = runCommits c (members.map commit) ∧ CommitsInRange c (members.map commit) := by
  induction members generalizing c with
  | nil =>
    cases h
    exact ⟨rfl, trivial⟩
  | cons b rest ih =>
    rw [oneByOne, bind_eq_ok] at h
    obtain ⟨_, hvalid, hrest⟩ := h
    obtain ⟨hrange, hrepresents⟩ := hstep hc hvalid
    obtain ⟨heq, hranges⟩ := ih hrepresents hrest
    exact ⟨heq, hrange, hranges⟩

/-- A loop that takes a step exactly where the first check passes, and behind it succeeds where the
rest of a sequence does, succeeds where the sequence does. -/
theorem exists_step_iff {τ γ : Type} {P Q : τ → Prop} {x : Except ReceiptLedgerError Unit}
    {y : Except ReceiptLedgerError γ} (hstep : ∀ t, P t ↔ x = .ok () ∧ Q t)
    (hrest : x = .ok () → ((∃ t, Q t) ↔ ∃ a, y = .ok a)) : (∃ t, P t) ↔ ∃ a, (do x; y) = .ok a := by
  simp only [hstep, exists_and_left, bind_eq_ok]
  constructor
  · rintro ⟨hx, ht⟩
    obtain ⟨a, ha⟩ := (hrest hx).mp ht
    exact ⟨a, (), hx, ha⟩
  · rintro ⟨a, _, hx, ha⟩
    exact ⟨hx, (hrest hx).mpr ⟨a, ha⟩⟩

/-! ## Insertion -/

/-- No receipt of the catalog has the digest or an identity of the entry. -/
def Absent (c : ReceiptCatalog) (e : CatalogEntry) : Prop :=
  c.records.lookup e.record.keyDigest = none
    ∧ c.invocationIndex.lookup e.record.key.invocationId = none
    ∧ c.reservedTaskIndex.lookup e.record.key.reservedTaskId = none

/-- Two entries that share neither digest nor identity. -/
def Apart (e e' : CatalogEntry) : Prop :=
  e.record.keyDigest ≠ e'.record.keyDigest ∧ e.record.key.invocationId ≠ e'.record.key.invocationId
    ∧ e.record.key.reservedTaskId ≠ e'.record.key.reservedTaskId

theorem absent_insert_iff {e' : CatalogEntry} (hrange : (insert e).InRange c) (h : Apart e e') :
    Absent (commitCatalogInsert c e) e' ↔ Absent c e' := by
  rw [commitCatalogInsert_eq hrange]
  simp only [Absent, Finmap.lookup_insert_of_ne _ h.1.symm, Finmap.lookup_insert_of_ne _ h.2.1.symm,
    Finmap.lookup_insert_of_ne _ h.2.2.symm]

/-- No catalogued receipt has one of the sequences. -/
def SequencesUnused (c : ReceiptCatalog) (sequences : List Nat) : Prop :=
  ∀ digest stored, c.records.lookup digest = some stored → stored.record.mutationSequence ∉ sequences

theorem SequencesUnused.not_taken (h : SequencesUnused c sequences) {sequence : Nat}
    (hmem : sequence ∈ sequences) (except : Option ReceiptKeyDigest) : c.sequenceTaken sequence except = false := by
  rw [Bool.eq_false_iff]
  intro htaken
  obtain ⟨digest, stored, hstored, -, -, heq⟩ := existsValue_iff.mp htaken
  exact h digest stored hstored (heq ▸ hmem)

/-- The receipt just committed has none of the sequences to come. -/
theorem SequencesUnused.insert {sequence : Nat} {rest : List Nat}
    {digest : ReceiptKeyDigest} (h : SequencesUnused c (sequence :: rest)) (hnodup : (sequence :: rest).Nodup)
    (hrecords : c'.records = c.records.insert digest e.withoutResultBody)
    (hsequence : e.record.mutationSequence = sequence) : SequencesUnused c' rest := by
  intro other stored hstored
  rw [hrecords] at hstored
  rcases lookup_insert_cases hstored with ⟨-, rfl⟩ | ⟨-, hstored⟩
  · rw [withoutResultBody_mutationSequence, hsequence]
    exact (nodup_cons.mp hnodup).1
  · exact fun hmem => h other stored hstored (mem_cons_of_mem _ hmem)

theorem admit_of_inRange (h : (insert e).InRange c) :
    c.toCatalogTotals.admit e = .ok (commitCatalogInsert c e).toCatalogTotals := by
  rw [commitCatalogInsert_eq h]
  obtain ⟨ha, hb, ht, hl, hn⟩ := h
  unfold CatalogTotals.admit
  cases htomb : e.isTombstone
  all_goals
    simp only [liveCount, tombstoneCount, htomb] at hl hn ⊢
    simp_all [checkedAdd, okOr, bind, Except.bind, pure, Except.pure]

theorem insertBatchLoop_mono {seen : List Nat} {t₀ : CatalogTotals}
    (h : insertBatchLoop c₀ entries seen t₀ = .ok t) :
    t₀.actualBytes + t₀.reservedResultBytes ≤ t.actualBytes + t.reservedResultBytes := by
  induction entries generalizing seen t₀ with
  | nil =>
    cases h
    exact Nat.le_refl _
  | cons e rest ih =>
    simp only [insertBatchLoop, refuseIf_bind_eq_ok] at h
    obtain ⟨-, -, -, -, h⟩ := h
    obtain ⟨t', haccepts, hrest⟩ := bind_eq_ok.mp h
    obtain ⟨-, -, -, -, -, rfl⟩ := admit_ok haccepts
    have hle := ih hrest
    simp only at hle
    omega

/-- The batch loop over the totals of a catalog accepts what the sequence from that catalog
accepts, as long as both find the same receipts absent. -/
theorem insertBatchLoop_iff (entries : List CatalogEntry) {seen : List Nat} (hc : c.Represents)
    (hapart : entries.Pairwise Apart) (habsent : ∀ e ∈ entries, Absent c₀ e ↔ Absent c e)
    (hnodup : (entries.map fun e => e.record.mutationSequence).Nodup)
    (hseen : ∀ e ∈ entries, e.record.mutationSequence ∉ seen)
    (hunused : SequencesUnused c (entries.map fun e => e.record.mutationSequence)) :
    (∃ t, insertBatchLoop c₀ entries seen c.toCatalogTotals = .ok t
      ∧ t.actualBytes + t.reservedResultBytes < wordBound) ↔ ∃ c', insertOneByOne c entries = .ok c' := by
  induction entries generalizing c seen with
  | nil => exact ⟨fun _ => ⟨c, rfl⟩, fun _ => ⟨_, rfl, hc.fits⟩⟩
  | cons e rest ih =>
    have hnot := hseen e mem_cons_self
    have hfree := hunused.not_taken mem_cons_self none
    obtain ⟨hfirst, hrest⟩ := pairwise_cons.mp hapart
    refine exists_step_iff (Q := fun t => insertBatchLoop c₀ rest (e.record.mutationSequence :: seen)
      (commitCatalogInsert c e).toCatalogTotals = .ok t ∧ t.actualBytes + t.reservedResultBytes < wordBound)
      (fun t => ?_) fun hvalid => ?_
    · simp only [insertBatchLoop, refuseIf_bind_eq_ok, Bool.not_eq_true, contains_eq_false,
        isSome_eq_false_iff, isNone_iff_eq_none]
      constructor
      · rintro ⟨⟨hdigest, hinvocation, htask, -, hloop⟩, hfits⟩
        obtain ⟨hdigest, hinvocation, htask⟩ := (habsent e mem_cons_self).mp ⟨hdigest, hinvocation, htask⟩
        obtain ⟨t', haccepts, hloop⟩ := bind_eq_ok.mp hloop
        obtain ⟨ha, hb, ht, hl, hn, rfl⟩ := admit_ok haccepts
        have hlive := hc.live_lt
        have htombs := hc.tombstones_lt
        have hrange : (insert e).InRange c := ⟨ha, hb, ht, by omega, by omega⟩
        have hle := insertBatchLoop_mono hloop
        have htotals := admit_of_inRange hrange
        rw [haccepts, Except.ok.injEq] at htotals
        refine ⟨validateCatalogInsert_ok.mpr ⟨hdigest, hinvocation, htask, fun _ => hfree, hrange, ?_⟩,
          htotals ▸ hloop, hfits⟩
        simp only at hle
        omega
      · rintro ⟨hvalid, hloop, hfits⟩
        have haccepted := validateCatalogInsert_ok.mp hvalid
        obtain ⟨hdigest, hinvocation, htask⟩ := (habsent e mem_cons_self).mpr
          ⟨haccepted.digest_absent, haccepted.invocation_absent, haccepted.reservedTask_absent⟩
        refine ⟨⟨hdigest, hinvocation, htask, hnot, ?_⟩, hfits⟩
        rw [admit_of_inRange haccepted.inRange]
        exact hloop
    · obtain ⟨hrange, hrepresents⟩ := insert_step hc hvalid
      refine ih hrepresents hrest ?_ (nodup_cons.mp hnodup).2 ?_ ?_
      · intro e' he'
        rw [absent_insert_iff hrange (hfirst e' he')]
        exact habsent e' (mem_cons_of_mem _ he')
      · intro e' he' hmem
        rcases mem_cons.mp hmem with heq | hmem
        · exact (nodup_cons.mp hnodup).1 (mem_map.mpr ⟨e', he', heq⟩)
        · exact hseen e' (mem_cons_of_mem _ he') hmem
      · exact hunused.insert hnodup (congrArg records (commitCatalogInsert_eq hrange)) rfl

/-! ## Replacement -/

def CatalogEntry.heldBytes (e : CatalogEntry) : Nat := e.liveActualBytes + e.reservedResultBytes

/-- The combined byte total fits a word behind every pair of the list. -/
def PrefixesFit (c : ReceiptCatalog) (pairs : List (CatalogEntry × CatalogEntry)) : Prop :=
  ∀ done, done <+: pairs →
    c.actualBytes + c.reservedResultBytes + (done.map fun pair => pair.2.heldBytes).sum
      < wordBound + (done.map fun pair => pair.1.heldBytes).sum

/-- What the loop has replaced is not what it expects any more: the new row has a sequence no row
of the first catalog has. -/
structure Replaced (c₀ c : ReceiptCatalog) (digests : List ReceiptKeyDigest) : Prop where
  kept : ∀ digest, digest ∉ digests → ∀ e, c₀.holds digest e = c.holds digest e
  renewed : ∀ digest, digest ∈ digests → ∀ e, c₀.holds digest e = true → c.holds digest e = false

theorem Replaced.refl (c : ReceiptCatalog) : Replaced c c [] where
  kept := fun _ _ _ => rfl
  renewed := fun _ h => absurd h not_mem_nil

theorem same_sequence {a b : CatalogEntry} (h : a.same b) :
    a.record.mutationSequence = b.record.mutationSequence := by
  have heq := same_iff.mp h
  rw [← withoutResultBody_mutationSequence a, heq, withoutResultBody_mutationSequence]

theorem Replaced.replace (h : Replaced c₀ c digests) (hc : c.Exact)
    (haccepted : ReplaceAccepted c e r) (hunused : SequencesUnused c₀ [r.record.mutationSequence]) :
    Replaced c₀ (commitCatalogReplace c r) (e.record.keyDigest :: digests) := by
  have hrange := haccepted.inRange hc
  have hp := haccepted.digest_eq ▸ hc.lookup_of_holds haccepted.holds
  constructor
  · intro digest hdigest x
    rw [mem_cons, not_or] at hdigest
    rw [holds_commitReplace hc hp hrange (haccepted.digest_eq ▸ hdigest.1)]
    exact h.kept digest hdigest.2 x
  · intro digest hdigest x hx
    by_cases heq : digest = r.record.keyDigest
    · rw [Bool.eq_false_iff]
      intro hholds
      obtain ⟨stored₀, hstored₀, hsame₀⟩ := holds_iff.mp hx
      obtain ⟨stored, hstored, hsame⟩ := holds_iff.mp hholds
      rw [commitCatalogReplace_eq hc hp hrange, heq, Finmap.lookup_insert] at hstored
      cases hstored
      apply hunused digest stored₀ hstored₀
      rw [mem_singleton, same_sequence hsame₀, ← same_sequence hsame,
        withoutResultBody_mutationSequence]
    · rw [holds_commitReplace hc hp hrange heq]
      rw [haccepted.digest_eq] at heq
      exact h.renewed digest ((mem_cons.mp hdigest).resolve_left heq) x hx

theorem exchange_of_accepted (hc : c.Exact) (h : ReplaceAccepted c e r) :
    c.toCatalogTotals.exchange e r = .ok (commitCatalogReplace c r).toCatalogTotals := by
  have hp := h.digest_eq ▸ hc.lookup_of_holds h.holds
  rw [commitCatalogReplace_eq hc hp (h.inRange hc)]
  simp only [exchange, bind_eq_ok, okOr_eq_ok, checkedExchange_eq_some]
  exact ⟨_, ⟨h.live.1, h.live.2, rfl⟩, _, ⟨h.tombstones.1, h.tombstones.2, rfl⟩, _, ⟨h.actual.1, h.actual.2, rfl⟩,
    _, ⟨h.reserved.1, h.reserved.2, rfl⟩, _, ⟨h.tombstone.1, h.tombstone.2, rfl⟩, by simp [pure, Except.pure]⟩

theorem PrefixesFit.first (h : PrefixesFit c ((e, r) :: rest)) :
    c.actualBytes + c.reservedResultBytes + r.heldBytes < wordBound + e.heldBytes := by
  have hfits := h [(e, r)] ⟨rest, rfl⟩
  simpa using hfits

theorem PrefixesFit.tail (h : PrefixesFit c ((e, r) :: rest))
    (htotal : c'.actualBytes + c'.reservedResultBytes + e.heldBytes
      = c.actualBytes + c.reservedResultBytes + r.heldBytes) : PrefixesFit c' rest := by
  intro done hdone
  have hfits := h ((e, r) :: done) (cons_prefix_cons.mpr ⟨rfl, hdone⟩)
  simp only [map_cons, sum_cons] at hfits
  omega

theorem replaceBatchLoop_iff (pairs : List (CatalogEntry × CatalogEntry))
    (hc : c.Represents) (hreplaced : Replaced c₀ c digests)
    (hheld : ∀ pair ∈ pairs, c₀.holds pair.1.record.keyDigest pair.1 = true)
    (hnodup : (pairs.map fun pair => pair.2.record.mutationSequence).Nodup)
    (hseen : ∀ pair ∈ pairs, pair.2.record.mutationSequence ∉ sequences)
    (hunused₀ : SequencesUnused c₀ (pairs.map fun pair => pair.2.record.mutationSequence))
    (hunused : SequencesUnused c (pairs.map fun pair => pair.2.record.mutationSequence))
    (hfit : PrefixesFit c pairs) :
    (∃ t, replaceBatchLoop c₀ pairs digests sequences c.toCatalogTotals = .ok t
      ∧ t.actualBytes + t.reservedResultBytes < wordBound) ↔ ∃ c', replaceOneByOne c pairs = .ok c' := by
  induction pairs generalizing c digests sequences with
  | nil => exact ⟨fun _ => ⟨c, rfl⟩, fun _ => ⟨_, rfl, hc.fits⟩⟩
  | cons pair rest ih =>
    obtain ⟨e, r⟩ := pair
    have hnot := hseen (e, r) mem_cons_self
    have hexpected := hheld (e, r) mem_cons_self
    refine exists_step_iff (Q := fun t => replaceBatchLoop c₀ rest (e.record.keyDigest :: digests)
      (r.record.mutationSequence :: sequences) (commitCatalogReplace c r).toCatalogTotals = .ok t
        ∧ t.actualBytes + t.reservedResultBytes < wordBound) (fun t => ?_) fun hvalid => ?_
    · simp only [replaceBatchLoop, refuseIf_bind_eq_ok, not_or, ne_eq, not_not, Bool.not_eq_false]
      constructor
      · rintro ⟨⟨hholds, ⟨hdigest, hkey, hfresh⟩, -, hloop⟩, hfits⟩
        obtain ⟨t', hexchange, hloop⟩ := bind_eq_ok.mp hloop
        obtain ⟨ha, hb, ht, hl, hn, -⟩ := exchange_ok hexchange
        have haccepted : ReplaceAccepted c e r := by
          refine ⟨hreplaced.kept _ hfresh e ▸ hholds, hdigest, hkey, fun _ => ?_, hl, ha, hb, ?_, hn, ht⟩
          · exact hunused.not_taken mem_cons_self _
          · have hfirst := hfit.first
            simp only [heldBytes] at hfirst
            omega
        rw [exchange_of_accepted hc.toExact haccepted, Except.ok.injEq] at hexchange
        exact ⟨validateCatalogReplace_ok.mpr haccepted, hexchange ▸ hloop, hfits⟩
      · rintro ⟨hvalid, hloop, hfits⟩
        have haccepted := validateCatalogReplace_ok.mp hvalid
        have hfresh : e.record.keyDigest ∉ digests := by
          intro hmem
          have hfalse := hreplaced.renewed _ hmem e hexpected
          rw [haccepted.holds] at hfalse
          cases hfalse
        refine ⟨⟨hexpected, ⟨haccepted.digest_eq, haccepted.key_eq, hfresh⟩, hnot, ?_⟩, hfits⟩
        rw [exchange_of_accepted hc.toExact haccepted]
        exact hloop
    · have haccepted : ReplaceAccepted c e r := validateCatalogReplace_ok.mp hvalid
      have hp := haccepted.digest_eq ▸ hc.toExact.lookup_of_holds haccepted.holds
      have hrecords := commitCatalogReplace_eq hc.toExact hp (haccepted.inRange hc.toExact)
      refine ih (replace_step hc hvalid).2 ?_ (fun pair hpair => hheld pair (mem_cons_of_mem _ hpair))
        (nodup_cons.mp hnodup).2 ?_ ?_ ?_ ?_
      · refine hreplaced.replace hc.toExact haccepted ?_
        intro digest stored hstored hmem
        exact hunused₀ digest stored hstored (mem_cons.mpr (.inl (mem_singleton.mp hmem)))
      · intro pair hpair hmem
        rcases mem_cons.mp hmem with heq | hmem
        · exact (nodup_cons.mp hnodup).1 (mem_map.mpr ⟨pair, hpair, heq⟩)
        · exact hseen pair (mem_cons_of_mem _ hpair) hmem
      · exact fun digest stored hstored hmem => hunused₀ digest stored hstored (mem_cons_of_mem _ hmem)
      · exact hunused.insert hnodup (congrArg records hrecords) rfl
      · apply hfit.tail
        rw [hrecords]
        have hactual := haccepted.actual.1
        have hreserved := haccepted.reserved.1
        simp only [heldBytes, withoutResultBody_liveActualBytes,
          withoutResultBody_reservedResultBytes]
        omega

/-! ## Both -/

/-- Live entries with distinct identities, under digests that do not collide and sequences that
are new. -/
structure NewEntries [ReceiptCodec] (c : ReceiptCatalog) (entries : List CatalogEntry) : Prop where
  live : ∀ e ∈ entries, e.isTombstone = false
  invocations_nodup : (entries.map fun e => e.record.key.invocationId).Nodup
  reservedTasks_nodup : (entries.map fun e => e.record.key.reservedTaskId).Nodup
  keyed : ∀ e ∈ entries, e.record.keyDigest = receiptKeyDigest e.record.key
  collisionFree : ∀ e ∈ entries, ∀ e' ∈ entries,
    receiptKeyDigest e.record.key = receiptKeyDigest e'.record.key → e.record.key = e'.record.key
  sequences_nodup : (entries.map fun e => e.record.mutationSequence).Nodup
  unused : SequencesUnused c (entries.map fun e => e.record.mutationSequence)

/-- Replacements of catalogued entries under sequences that are new, tombstones included. -/
structure Replacements (c : ReceiptCatalog) (pairs : List (CatalogEntry × CatalogEntry)) : Prop where
  catalogued : ∀ pair ∈ pairs, c.holds pair.1.record.keyDigest pair.1 = true
  sequences_nodup : (pairs.map fun pair => pair.2.record.mutationSequence).Nodup
  unused : SequencesUnused c (pairs.map fun pair => pair.2.record.mutationSequence)
  fit : PrefixesFit c pairs

theorem NewEntries.apart [ReceiptCodec] (h : NewEntries c entries) : entries.Pairwise Apart := by
  have hinvocations := pairwise_map.mp h.invocations_nodup
  have htasks := pairwise_map.mp h.reservedTasks_nodup
  refine (hinvocations.and htasks).imp_of_mem ?_
  intro e e' he he' ⟨hinvocation, htask⟩
  refine ⟨fun hdigest => hinvocation ?_, hinvocation, htask⟩
  rw [h.keyed e he, h.keyed e' he'] at hdigest
  rw [h.collisionFree e he e' he' hdigest]

/-- A cancelled receipt under its number. -/
def numberedCancel (n : Nat) : CatalogEntry where
  record :=
    { schemaVersion := persistentCancelRecordSchemaVersion
      mutationSequence := n
      recordVersion := .initial
      key := numberedKey n
      keyDigest := n
      lifecycle := .cancelReserved 0 none true }
  encodedBytes := 100
  encoded_pos := by decide
  encoded_le := by decide

def twoCancelled : ReceiptCatalog := runCommits .empty [.insert (numberedCancel 1), .insert (numberedCancel 2)]

theorem twoCancelled_represents : twoCancelled.Represents := by
  have hfirst : validateCatalogInsert .empty (numberedCancel 1) false = .ok () := rfl
  have hsecond : validateCatalogInsert (commitCatalogInsert .empty (numberedCancel 1)) (numberedCancel 2) false
    = .ok () := by decide +kernel
  exact (insert_step (insert_step empty_represents hfirst).2 hsecond).2

theorem twoCancelled_unused (h1 : 1 ∉ sequences) (h2 : 2 ∉ sequences) :
    SequencesUnused twoCancelled sequences := by
  intro digest stored hstored
  have hrecords : twoCancelled.records = ((∅ : Table ReceiptKeyDigest CatalogEntry).insert 1 (numberedCancel 1)).insert 2
    (numberedCancel 2) := rfl
  rw [hrecords] at hstored
  rcases lookup_insert_cases hstored with ⟨-, rfl⟩ | ⟨-, hstored⟩
  · exact h2
  rcases lookup_insert_cases hstored with ⟨-, rfl⟩ | ⟨-, hstored⟩
  · exact h1
  · cases hstored

/-- The tombstone of a cancelled receipt, under a sequence of its own. -/
def sequencedTombstone (n sequence : Nat) : CatalogEntry :=
  { numberedTombstone n with
    record := { (numberedTombstone n).record with mutationSequence := sequence } }

section Sample

attribute [local instance] Unica.Task.plainCodec

end Sample

end Unica.Receipt
