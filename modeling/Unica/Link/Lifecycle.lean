import Unica.Link.Machine

/-!
# The life of a link

What the operations of the link store do to one entry: a link goes from its reservation to
a bound Task, a terminal one, a retirement and out of the catalog, one version at a time.
Over any sequence of operations that succeed, the catalog in memory is sound, is the one on
disk, and no two of its links share a mutation sequence.
-/

namespace Unica.Link

open Lib Receipt Prog Option LinkStore

section Lifecycle

variable [ReceiptCodec]
variable {task : ReceiptTaskProjection} {record expected : TaskBoundReceipt}
  {taskRecordVersion : Nat}

/-- What an operation may make of the entry of a key. -/
inductive Advances : Option LinkEntry → Option LinkEntry → Prop where
  | reserved {held : TaskLinkReservation} (hversion : held.header.lifecycleLinkVersion = 1) :
      Advances none (some (.reservation held))
  | bound {held : TaskLinkReservation} {record : TaskBoundReceipt}
      (hversion : record.record.lifecycleLinkVersion = held.header.lifecycleLinkVersion + 1) :
      Advances (some (.reservation held)) (some (.link (.taskBound record)))
  | rebound {old record : TaskBoundReceipt}
      (hversion : record.record.lifecycleLinkVersion = old.record.lifecycleLinkVersion + 1)
      (hphase : old.phase = .begun → record.phase = .begun) :
      Advances (some (.link (.taskBound old))) (some (.link (.taskBound record)))
  | terminal {old : TaskBoundReceipt} {record : TaskTerminalBoundReceipt}
      (hversion : record.record.lifecycleLinkVersion = old.record.lifecycleLinkVersion + 1) :
      Advances (some (.link (.taskBound old))) (some (.link (.taskTerminalBound record)))
  | retiring {old : TaskTerminalBoundReceipt} {record : TaskRetirementPendingReceipt}
      (hversion : record.record.lifecycleLinkVersion = old.record.lifecycleLinkVersion + 1) :
      Advances (some (.link (.taskTerminalBound old))) (some (.link (.taskRetirementPending record)))
  | removed {old : TaskRetirementPendingReceipt} :
      Advances (some (.link (.taskRetirementPending old))) none

/-- The next catalog has the entry of the key one stage on, with the newest sequence. -/
structure Moves (c : LinkCatalog) (d : ReceiptKeyDigest) (next : LinkCatalog) : Prop where
  plans : Plans c d next
  advances : Advances (c.entries.lookup d) (next.entries.lookup d)
  newest : ∀ e, next.entries.lookup d = some e → e.header.mutationSequence = c.mutationSequence + 1

/-! ## The plans -/

section Plans

variable {c next : LinkCatalog}

theorem Moves.of_inserts {entry : LinkEntry} {key : ReceiptKey} (hinserts : Inserts c next entry)
    (hkey : entry.header.key = key)
    (hadvances : Advances (c.entries.lookup (receiptKeyDigest key)) (some entry)) :
    Moves c (receiptKeyDigest key) next := by
  have hdigest := keyDigest_of_key hkey
  refine ⟨hdigest ▸ hinserts.plans, ?_, fun e he => ?_⟩
  · rw [← hdigest, hinserts.lookup_eq]
    exact hdigest ▸ hadvances
  · rw [← hdigest, hinserts.lookup_eq] at he
    cases he
    exact hinserts.newest

section

variable (hc : c.Sound)
include hc

theorem planReservation_moves {key : ReceiptKey} {link : TaskLinkIdentity}
    {held : TaskLinkReservation} (habsent : c.entries.lookup (receiptKeyDigest key) = none)
    (h : planReservation key link c = .ok (next, held)) : Moves c (receiptKeyDigest key) next := by
  obtain ⟨hinserts, hkey⟩ := planReservation_ok hc habsent h
  obtain ⟨-, h⟩ := refuseIf_bind_eq_ok.mp h
  obtain ⟨-, hbuild, -, -⟩ := planEntry_ok h
  obtain ⟨-, hhas, -⟩ := measured_ok finishes_reservation hbuild
  refine .of_inserts hinserts hkey ?_
  rw [habsent]
  exact .reserved hhas.version_eq

theorem planTaskBound_moves {reservation : TaskLinkReservation} {bindEpochMs : EpochMs}
    {phase : AttemptPhase}
    (h : planTaskBound reservation task taskRecordVersion bindEpochMs phase c = .ok (next, record)) :
    Moves c (receiptKeyDigest reservation.header.key) next := by
  obtain ⟨hfound, h⟩ := refuseIf_bind_eq_ok.mp h
  rw [not_not] at hfound
  obtain ⟨hinserts, hkey, -, hversion, -⟩ := planEntry_taskBound hc hfound rfl h
  refine .of_inserts hinserts hkey ?_
  rw [hfound]
  exact .bound hversion

theorem planBoundSuccessor_moves {phase : AttemptPhase}
    (hfound : c.entries.lookup (receiptKeyDigest expected.record.key)
      = some (.link (.taskBound expected))) (hphase : expected.phase = .begun → phase = .begun)
    (h : planBoundSuccessor expected task phase c = .ok (next, record)) :
    Moves c (receiptKeyDigest expected.record.key) next := by
  obtain ⟨hinserts, hkey, -, hversion, -, -, -, hphase'⟩ := planEntry_taskBound hc hfound rfl h
  refine .of_inserts hinserts hkey ?_
  rw [hfound]
  exact .rebound hversion fun hbegun => hphase'.trans (hphase hbegun)

theorem planBegun_moves {updatedAtEpochMs : EpochMs}
    (h : planBegun expected taskRecordVersion updatedAtEpochMs c = .ok (next, record)) :
    Moves c (receiptKeyDigest expected.record.key) next := by
  obtain ⟨_, hexact, h⟩ := bind_eq_ok.mp h
  obtain ⟨task, -, h⟩ := bind_eq_ok.mp h
  exact planBoundSuccessor_moves hc (exactLink_eq_ok.mp hexact) (fun _ => rfl) h

theorem planRefreshed_moves (h : planRefreshed expected task c = .ok (next, record)) :
    Moves c (receiptKeyDigest expected.record.key) next := by
  obtain ⟨_, hexact, h⟩ := bind_eq_ok.mp h
  exact planBoundSuccessor_moves hc (exactLink_eq_ok.mp hexact) id h

theorem planTerminalBound_moves {status : ClosedTerminalStatus} {digest : TerminalDigest}
    {terminalEpochMs : EpochMs} {record : TaskTerminalBoundReceipt}
    (h : planTerminalBound expected task taskRecordVersion status digest terminalEpochMs c
      = .ok (next, record)) : Moves c (receiptKeyDigest expected.record.key) next := by
  obtain ⟨hfound, hinserts, hkey, -⟩ := planTerminalBound_ok hc h
  obtain ⟨_, -, h⟩ := bind_eq_ok.mp h
  obtain ⟨-, hbuild, -, -⟩ := planEntry_ok h
  obtain ⟨expiry, -, hbuild⟩ := bind_eq_ok.mp hbuild
  obtain ⟨version, hversion, hbuild⟩ := bind_eq_ok.mp hbuild
  obtain ⟨-, rfl⟩ := nextSequence_eq_ok.mp hversion
  obtain ⟨-, hhas, -⟩ := measured_ok (finishes_taskTerminalBound _ _ _ _ _ _) hbuild
  refine .of_inserts hinserts hkey ?_
  rw [hfound]
  exact .terminal hhas.version_eq

theorem planRetirement_moves {expected : TaskTerminalBoundReceipt} {invocationBytes taskBytes : Nat}
    {record : TaskRetirementPendingReceipt}
    (h : planRetirement expected invocationBytes taskBytes c = .ok (next, record)) :
    Moves c (receiptKeyDigest expected.record.key) next := by
  obtain ⟨hfound, hinserts, hkey, -⟩ := planRetirement_ok hc h
  obtain ⟨_, -, h⟩ := bind_eq_ok.mp h
  obtain ⟨-, hbuild, -, -⟩ := planEntry_ok h
  obtain ⟨version, hversion, hbuild⟩ := bind_eq_ok.mp hbuild
  obtain ⟨-, rfl⟩ := nextSequence_eq_ok.mp hversion
  obtain ⟨accounting, -, hbuild⟩ := bind_eq_ok.mp hbuild
  obtain ⟨-, hhas, -⟩ := measured_ok (finishes_taskRetirementPending _ _ _ _ _ _ _ _) hbuild
  refine .of_inserts hinserts hkey ?_
  rw [hfound]
  exact .retiring hhas.version_eq

theorem planRemoval_moves {expected : TaskRetirementPendingReceipt}
    (h : planRemoval expected c = .ok (next, ())) :
    Moves c (receiptKeyDigest expected.record.key) next := by
  obtain ⟨hfound, hplans, hgone⟩ := planRemoval_ok hc h
  refine ⟨hplans, ?_, fun e he => ?_⟩
  · rw [hfound, hgone]
    exact .removed
  · rw [hgone] at he
    cases he

end

end Plans

/-! ## One successful call -/

variable {s s' : LinkStore} {call : LinkCall} {d : ReceiptKeyDigest}

/-- What a call that succeeds does: a reader, or a reservation that is already there, changes
nothing; a mutation moves the entry of its key; a reload adopts the disk. -/
inductive Success (call : LinkCall) (s s' : LinkStore) : Prop where
  | kept (hsnapshot : s'.snapshot = s.snapshot) (hmemory : s'.memory = s.memory)
      (hkept : ∀ d, call.key? = some d →
        (∃ key link, call = .reserve key link) ∧ ∃ held, s.memory.entries.lookup d = some (.reservation held))
  | moved (d : ReceiptKeyDigest) (hkey : call.key? = some d) (hmoves : Moves s.memory d s'.memory)
      (hsnapshot : s'.snapshot = some s'.memory.stored)
  | adopted (hkey : call.key? = none) (hdisk : s.OnDisk s'.memory) (hsnapshot : s'.snapshot = s.snapshot)

open Success

theorem Success.of_mutates {α : Type} {m : LinkM α} {keep : α → Prop} {C : Prop}
    {next : α → LinkCatalog → Prop} (hkey : call.key? = some d)
    (h : Mutates (fun _ => True) m s keep C next) (hnext : ∀ a c, next a c → Moves s.memory d c)
    (hkeep : ∀ a, keep a →
      (∃ key link, call = .reserve key link) ∧ ∃ held, s.memory.entries.lookup d = some (.reservation held)) :
    Sat (fun _ => True) (LinkCall.forgetting m) s fun out s' => out = .ok () → Success call s s' := by
  refine .bind h ?_ (fun _ _ _ => nofun) (fun _ _ => nofun)
  rintro a t (⟨hsame, ha⟩ | ⟨b, c, hc, -, hcommitted⟩)
  · refine .pure fun _ => .kept hsame.1 hsame.2.1 fun d' hd' => ?_
    obtain rfl := some.inj (hkey.symm.trans hd')
    exact hkeep a ha
  · have hmemory := hcommitted.memory_eq
    refine .pure fun _ => .moved d hkey ?_ ?_
    · rw [hmemory]
      exact hnext b c hc
    · rw [hmemory]
      exact hcommitted.snapshot_eq

theorem LinkCall.run_success (hs : s.Consistent) (call : LinkCall) :
    Sat (fun _ => True) call.run s fun out s' => out = .ok () → Success call s s' := by
  cases call with
  | reserve key link =>
    exact of_mutates rfl (reserveTaskLink_mutates hs.memory)
      (fun held c hplan => planReservation_moves hs.memory hplan.1 hplan.2)
      fun held hheld => ⟨⟨key, link, rfl⟩, held, hheld⟩
  | materialize reservation task version bindEpochMs phase =>
    refine of_mutates rfl (materializeTaskBound_mutates hs.memory) ?_ fun _ h => h.elim
    exact fun record c hplan => planTaskBound_moves hs.memory hplan
  | markBegun expected version updatedAtEpochMs =>
    refine of_mutates rfl (markTaskBoundBegun_mutates hs.memory) ?_ fun _ h => h.elim
    exact fun record c hplan => planBegun_moves hs.memory hplan.2
  | refresh expected task =>
    refine of_mutates rfl (refreshTaskBoundProjection_mutates hs.memory) ?_ fun _ h => h.elim
    exact fun record c hplan => planRefreshed_moves hs.memory hplan
  | publishTerminal expected task version status digest terminalEpochMs =>
    refine of_mutates rfl (publishTaskTerminalBound_mutates hs.memory) ?_ fun _ h => h.elim
    exact fun record c hplan => planTerminalBound_moves hs.memory hplan
  | beginRetirement expected invocationBytes taskBytes =>
    refine of_mutates rfl (beginTaskRetirement_mutates hs.memory) ?_ fun _ h => h.elim
    exact fun record c hplan => planRetirement_moves hs.memory hplan
  | finalizeRetirement expected =>
    refine of_mutates rfl (finalizeTaskRetirement_mutates hs.memory) ?_ fun _ h => h.elim
    exact fun _ c hplan => planRemoval_moves hs.memory hplan
  | read taskId =>
    exact (readByTaskId_looks taskId).bind_sat (fun _ _ => .pure fun _ => .kept rfl rfl nofun)
      (fun _ _ _ _ _ => nofun) fun _ _ _ => nofun
  | reload =>
    obtain ⟨c, hdisk⟩ := hs.disk
    refine Ends.sat (reloadDurableCatalog_ends hdisk) ?_ (fun _ _ _ => nofun) fun _ _ => nofun
    rintro _ t rfl
    exact fun _ => .adopted rfl hdisk rfl
  | reopen =>
    obtain ⟨c, hdisk⟩ := hs.disk
    refine Ends.sat (openLinkStore_ends hdisk) ?_ (fun _ _ _ => nofun) fun _ _ => nofun
    rintro _ t ⟨hsnapshot, hmemory, -⟩ -
    exact .adopted rfl (hmemory ▸ hdisk) hsnapshot

/-! ## Runs of successful calls -/

/-- One call that succeeds. -/
def LinkStore.Succeeds (s s' : LinkStore) : Prop :=
  ∃ (call : LinkCall) (o : List Verdict), (call.run s o).outcome = .ok () ∧ s' = (call.run s o).state

/-- The catalog in memory is the one on disk, and its links have sequences of their own. -/
structure LinkStore.Settled (s : LinkStore) : Prop where
  consistent : s.Consistent
  disk : s.OnDisk s.memory
  distinct : ∀ d d' e e', s.memory.entries.lookup d = some e → s.memory.entries.lookup d' = some e' →
    e.header.mutationSequence = e'.header.mutationSequence → d = d'

theorem LinkStore.settled_fresh : fresh.Settled :=
  ⟨consistent_fresh, .absent rfl, fun d d' e e' he => by simp [fresh, LinkCatalog.empty] at he⟩

/-- The moved entry has a sequence above all others. -/
theorem Moves.distinct {c next : LinkCatalog} (hc : c.Sound) (h : Moves c d next)
    (hdistinct : ∀ d d' e e', c.entries.lookup d = some e → c.entries.lookup d' = some e' →
      e.header.mutationSequence = e'.header.mutationSequence → d = d') :
    ∀ d d' e e', next.entries.lookup d = some e → next.entries.lookup d' = some e' →
      e.header.mutationSequence = e'.header.mutationSequence → d = d' := by
  have hother : ∀ d' e', d' ≠ d → next.entries.lookup d' = some e' →
      e'.header.mutationSequence ≤ c.mutationSequence := by
    intro d' e' hne he'
    rw [h.plans.frame d' hne] at he'
    exact hc.below d' e' he'
  intro d₁ d₂ e₁ e₂ he₁ he₂ heq
  by_cases h₁ : d₁ = d
  · by_cases h₂ : d₂ = d
    · rw [h₁, h₂]
    · have hnewest := h.newest e₁ (h₁ ▸ he₁)
      have hle := hother d₂ e₂ h₂ he₂
      omega
  · by_cases h₂ : d₂ = d
    · have hnewest := h.newest e₂ (h₂ ▸ he₂)
      have hle := hother d₁ e₁ h₁ he₁
      omega
    · rw [h.plans.frame d₁ h₁] at he₁
      rw [h.plans.frame d₂ h₂] at he₂
      exact hdistinct d₁ d₂ e₁ e₂ he₁ he₂ heq

/-- The disk holds one catalog. -/
theorem LinkStore.OnDisk.unique {c c' : LinkCatalog} (h : s.OnDisk c) (h' : s.OnDisk c') : c = c' := by
  cases h with
  | snapshot c hc hs =>
    cases h' with
    | snapshot c' hc' hs' =>
      have hstored : c.stored = c'.stored := some.inj (hs.symm.trans hs')
      have hread := hc.read_stored
      rw [hstored, hc'.read_stored] at hread
      exact (Except.ok.inj hread).symm
    | absent hs' => cases hs.symm.trans hs'
  | absent hs =>
    cases h' with
    | snapshot c' hc' hs' => cases hs.symm.trans hs'
    | absent => rfl

theorem LinkStore.Settled.success (hs : s.Settled) (h : Success call s s') (hconsistent : s'.Consistent) :
    s'.Settled := by
  cases h with
  | kept hsnapshot hmemory =>
    refine ⟨hconsistent, ?_, ?_⟩
    · rw [hmemory]
      exact hs.disk.congr hsnapshot
    · rw [hmemory]
      exact hs.distinct
  | moved d hkey hmoves hsnapshot =>
    exact ⟨hconsistent, .snapshot _ hmoves.plans.sound hsnapshot,
      hmoves.distinct hs.consistent.memory hs.distinct⟩
  | adopted hkey hdisk hsnapshot =>
    refine ⟨hconsistent, hdisk.congr hsnapshot, ?_⟩
    rw [hdisk.unique hs.disk]
    exact hs.distinct

theorem LinkStore.Settled.runs (hs : s.Settled) (h : Relation.ReflTransGen Succeeds s s') : s'.Settled := by
  induction h with
  | refl => exact hs
  | tail _ hstep ih =>
    obtain ⟨call, o, hok, rfl⟩ := hstep
    have hsuccess := (call.run_success ih.consistent o fun _ _ => trivial).1 hok
    exact ih.success hsuccess (ih.consistent.run call o)

/-- What a successful call does to the entry of each key. -/
theorem Success.entry (hs : s.Settled) (h : Success call s s') (d : ReceiptKeyDigest) :
    (call.key? = some d → Advances (s.memory.entries.lookup d) (s'.memory.entries.lookup d)
      ∨ (∃ key link, call = .reserve key link) ∧ (∃ held, s.memory.entries.lookup d = some (.reservation held))
        ∧ s'.memory.entries.lookup d = s.memory.entries.lookup d)
    ∧ (call.key? ≠ some d → s'.memory.entries.lookup d = s.memory.entries.lookup d) := by
  cases h with
  | kept _ hmemory hkept =>
    rw [hmemory]
    exact ⟨fun hkey => .inr ⟨(hkept d hkey).1, (hkept d hkey).2, rfl⟩, fun _ => rfl⟩
  | moved d' hkey hmoves =>
    constructor
    · intro hd
      obtain rfl := some.inj (hkey.symm.trans hd)
      exact .inl hmoves.advances
    · intro hd
      exact hmoves.plans.frame d fun heq => hd (heq ▸ hkey)
  | adopted hkey hdisk =>
    rw [hdisk.unique hs.disk]
    refine ⟨fun hd => ?_, fun _ => rfl⟩
    rw [hkey] at hd
    cases hd

/-- **The link catalog.** After any operations that succeeded, on a new store: the two indexes are
the inverses of the entries' Tasks and invocations; no entry is newer than the catalog and no two
are of one mutation; the snapshot is read as the catalog in whatever order its entries are
written; and the next operation that succeeds moves the entry of its key one stage and one version
on, unless it reserves what is reserved, and no other entry. -/
theorem link_catalog_lifecycle (h : Relation.ReflTransGen LinkStore.Succeeds .fresh s) :
    (∀ taskId d, s.memory.taskIndex.lookup taskId = some d
      ↔ ∃ entry, s.memory.entries.lookup d = some entry ∧ entry.header.key.reservedTaskId = taskId)
    ∧ (∀ invocationId d, s.memory.invocationIndex.lookup invocationId = some d
      ↔ ∃ entry, s.memory.entries.lookup d = some entry ∧ entry.header.key.invocationId = invocationId)
    ∧ (∀ d entry, s.memory.entries.lookup d = some entry →
      entry.header.mutationSequence ≤ s.memory.mutationSequence)
    ∧ (∀ d d' entry entry', s.memory.entries.lookup d = some entry → s.memory.entries.lookup d' = some entry' →
      entry.header.mutationSequence = entry'.header.mutationSequence → d = d')
    ∧ (∀ order, s.memory.Enumerates order → (s.memory.storedIn order).read = .ok s.memory)
    ∧ ∀ call o d, (LinkCall.run call s o).outcome = .ok () → (call.key? = some d →
        Advances (s.memory.entries.lookup d) ((call.run s o).state.memory.entries.lookup d)
        ∨ (∃ key link, call = .reserve key link) ∧ (∃ held, s.memory.entries.lookup d = some (.reservation held))
          ∧ (call.run s o).state.memory.entries.lookup d = s.memory.entries.lookup d)
      ∧ (call.key? ≠ some d → (call.run s o).state.memory.entries.lookup d = s.memory.entries.lookup d) := by
  have hs := LinkStore.settled_fresh.runs h
  have hsound := hs.consistent.memory
  refine ⟨hsound.tasks, hsound.invocations, hsound.below, hs.distinct, fun order => hsound.read_storedIn, ?_⟩
  intro call o d hok
  exact ((call.run_success hs.consistent o fun _ _ => trivial).1 hok).entry hs d

end Lifecycle

section Sample

open Unica.Task

attribute [local instance] plainCodec

/-- Two reservations. -/
def twoReservations : LinkStore := ((plainReserve 2).run ((plainReserve 1).run .fresh []).state []).state

theorem link_catalog_lifecycle_twoReservations : twoReservations.memory.entries.sortedKeys = [1, 2]
      ∧ (twoReservations.memory.storedIn [2, 1]).read = .ok twoReservations.memory
      ∧ ((plainReserve 3).run twoReservations []).state.memory.entries.lookup 1
        = twoReservations.memory.entries.lookup 1 := by
  have hruns : Relation.ReflTransGen LinkStore.Succeeds .fresh twoReservations :=
    .tail (.single ⟨plainReserve 1, [], by decide +kernel, rfl⟩) ⟨plainReserve 2, [], by decide +kernel, rfl⟩
  obtain ⟨-, -, -, -, hread, hnext⟩ := link_catalog_lifecycle hruns
  have hkeys : twoReservations.memory.entries.sortedKeys = [1, 2] := by decide +kernel
  refine ⟨hkeys, hread [2, 1] ⟨by decide, fun d => ?_⟩, ?_⟩
  · rw [Option.isSome_iff_exists, ← Table.mem_sortedKeys, hkeys]
    simp only [List.mem_cons, List.not_mem_nil, or_false]
    exact or_comm
  · exact (hnext (plainReserve 3) [] 1 (by decide +kernel)).2 (by decide +kernel)

end Sample

end Unica.Link
