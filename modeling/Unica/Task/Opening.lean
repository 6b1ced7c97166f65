import Unica.Task.Spec

/-!
# Opening a Task store

A new handle reads every record of its directory, knows exactly the ids it found and
removes what earlier processes staged. It changes no record. It refuses a directory with
an unreadable record, and one with a name it does not know: the quarantine of a removal
that did not finish.
-/

namespace Unica.Task

open Lib Receipt Prog Discipline TaskStore List Stays Table

/-- What an opening leaves alone. The ids it knows are its own business until it has finished. -/
def opening (V : Verdict → Prop) : Discipline TaskStore V5TaskStoreError where
  same s s' := s'.records = s.records ∧ (s'.quarantined = s.quarantined ∨ V .fail ∨ V .crash)
  before _ := True
  after _ := False
  same_refl _ := ⟨rfl, .inl rfl⟩
  same_trans s t u hst htu := by
    refine ⟨htu.1.trans hst.1, ?_⟩
    rcases hst.2 with hq | hv
    · exact htu.2.imp_left (·.trans hq)
    · exact .inr hv

variable {V : Verdict → Prop} {s : TaskStore}

/-- A look of the store, then the rest of the opening. -/
theorem opening_look {α β : Type} {m : TaskM α} {f : α → TaskM β} {Q : α → Prop}
    {P : β → TaskStore → Prop} {C : Prop} (hm : (discipline V).Looks V m s Q C)
    (hf : ∀ a, Q a → (opening V).Stays V (f a) s P C) : (opening V).Stays V (m >>= f) s P C :=
  .look (hm.weaken (fun _ _ h => ⟨h.1, h.2.2⟩) fun _ _ => trivial) hf

variable [TaskCodec]

/-- The entry notes the record the directory holds under the id. -/
def NotedBy (s : TaskStore) (taskId : TaskId) (entry : V5TaskRecoveryEntry) : Prop :=
  ∃ r, s.Holds taskId r ∧ entry = .fromRecord r

theorem TaskStore.Holds.congr {s s' : TaskStore} {taskId : TaskId} {r : V5StoredInvocationRecord}
    (h : s.Holds taskId r) (hrecords : s'.records = s.records) : s'.Holds taskId r :=
  ⟨hrecords ▸ h.lookup_eq, h.id_eq, h.publishable⟩

theorem inspectRecords_stays {C : Prop} (ids : List TaskId) :
    ∀ {s : TaskStore}, ((∃ taskId ∈ ids, ∀ r, ¬ s.Holds taskId r) → C) →
      (opening V).Stays V (inspectRecords ids) s
        (fun entries s' => Forall₂ (NotedBy s) ids entries ∧ s'.quarantined = s.quarantined
          ∧ ∀ taskId, taskId ∈ s'.known ↔ taskId ∈ s.known ∨ taskId ∈ ids) C := by
  induction ids with
  | nil =>
    intro s _
    exact .pure ⟨.nil, rfl, fun _ => by simp⟩
  | cons id rest ih =>
    intro s hc
    refine opening_look looks_checkDeadline fun _ _ => ?_
    refine opening_look (looks_readCommittedFrom fun h => hc ⟨id, mem_cons_self, h⟩)
      fun r hr => ?_
    refine .bind (modify (P := fun _ t => t = s.know id) ⟨rfl, .inl rfl⟩ rfl) ?_
    rintro _ _ - rfl
    have hrest : (∃ taskId ∈ rest, ∀ r, ¬ (s.know id).Holds taskId r) → C := fun ⟨taskId, hmem, hnone⟩ =>
      hc ⟨taskId, mem_cons_of_mem _ hmem, fun r hr => hnone r (hr.congr rfl)⟩
    refine .bind (ih hrest) ?_
    rintro entries t - ⟨hnoted, hquarantined, hknown⟩
    refine .pure ⟨.cons ⟨r, hr, rfl⟩ (hnoted.imp fun _ _ ⟨r, hr, he⟩ => ⟨r, hr.congr rfl, he⟩),
      hquarantined, fun taskId => ?_⟩
    rw [hknown]
    simp only [know, Finset.mem_insert, mem_cons]
    tauto

omit [TaskCodec] in
theorem removeAbandonedStaging_stays {C : Prop} (count : Nat) :
    ∀ {s : TaskStore}, (opening V).Stays V (removeAbandonedStaging count) s
      (fun _ s' => s'.known = s.known ∧ s'.quarantined = s.quarantined) C := by
  induction count with
  | zero => exact .pure ⟨rfl, rfl⟩
  | succ count ih =>
    intro s
    refine opening_look looks_checkDeadline fun _ _ => ?_
    refine opening_look (looks_io _) fun _ _ => ?_
    refine opening_look looks_verifyRootAuthority fun _ _ => ?_
    have hremove : (opening V).Stays V (removeStateRegularChild unstage
        "remove abandoned protocol-v5 task staging entry") s
        (fun _ s' => s'.known = s.known ∧ s'.quarantined = s.quarantined) C := by
      refine opening_look (looks_io _) fun _ _ => ?_
      refine .modify_bind ?_
      refine .bind (Ends.attempt (Q := fun _ t => t = s.unstage.quarantine) rfl
        (fun hv => ⟨⟨rfl, .inr (.inl hv)⟩, trivial, .inl hv⟩) fun hv => ⟨⟨rfl, .inr (.inr hv)⟩, hv⟩) ?_
      rintro _ _ rfl
      exact .modify ⟨⟨rfl, .inl (Nat.add_sub_cancel _ 1)⟩, rfl, Nat.add_sub_cancel _ 1⟩
    refine .bind hremove ?_
    rintro _ t - ⟨hknown, hquarantined⟩
    exact ih.mono (fun _ _ _ h => ⟨h.1.trans hknown, h.2.trans hquarantined⟩) id

/-- A successful opening: the records are as they were, all were read, and the handle knows them. -/
structure Opened (s : TaskStore) (entries : List V5TaskRecoveryEntry) (s' : TaskStore) : Prop where
  records_eq : s'.records = s.records
  clean : s.quarantined = 0 ∧ s'.quarantined = 0
  known_iff : ∀ taskId, taskId ∈ s'.known ↔ ∃ r, s.records.lookup taskId = some r
  noted : List.Forall₂ (NotedBy s) s.records.sortedKeys entries

/-- Why an opening refuses without a fault. -/
def Unopenable (s : TaskStore) : Prop :=
  0 < s.quarantined ∨ ∃ taskId r, s.records.lookup taskId = some r ∧ ¬ s.Holds taskId r

theorem openInspectOnly_ends : Ends V openInspectOnly s (Opened s)
    (fun _ s' => (opening V).same s s' ∧ (V .fail ∨ Unopenable s))
    fun s' => (opening V).same s s' ∧ V .crash := by
  have hopen : (opening V).Stays V openInspectOnly s (Opened s) (Unopenable s) := by
    refine .bind (modify (P := fun _ t => t = { s with known := ∅ }) ⟨rfl, .inl rfl⟩ rfl) ?_
    rintro _ _ - rfl
    refine opening_look looks_checkDeadline fun _ _ => ?_
    refine opening_look (looks_io _) fun _ _ => ?_
    refine opening_look looks_lockWriter fun _ _ => ?_
    refine opening_look looks_verifyRootAuthority fun _ _ => ?_
    refine opening_look (looks_io _) fun _ _ => ?_
    refine .get_bind ?_
    refine opening_look (looks_refuseIf .inl) fun _ hclean => ?_
    have hrecords : (∃ taskId ∈ s.records.sortedKeys, ∀ r,
        ¬ Holds { s with known := ∅ } taskId r) → Unopenable s := by
      rintro ⟨taskId, hmem, hnone⟩
      obtain ⟨r, hr⟩ := mem_sortedKeys.mp hmem
      exact .inr ⟨taskId, r, hr, fun h => hnone r (h.congr rfl)⟩
    refine .bind (inspectRecords_stays _ hrecords) ?_
    rintro entries t hsame ⟨hnoted, hquarantined, hknown⟩
    refine .bind (removeAbandonedStaging_stays _) ?_
    rintro _ u hsame' ⟨hknown', hquarantined'⟩
    refine opening_look (looks_io _) fun _ _ => ?_
    refine opening_look looks_verifyRootAuthority fun _ _ => ?_
    have hzero : s.quarantined = 0 := Nat.eq_zero_of_not_pos hclean
    refine .pure ⟨hsame'.1.trans hsame.1, ⟨hzero, (hquarantined'.trans hquarantined).trans hzero⟩, ?_, ?_⟩
    · intro taskId
      rw [hknown', hknown]
      simp only [Finset.notMem_empty, false_or]
      exact mem_sortedKeys
    · exact hnoted.imp fun _ _ ⟨r, hr, he⟩ => ⟨r, hr.congr rfl, he⟩
  exact .mono hopen (fun _ _ h => h.2) (fun _ _ h => ⟨h.1, h.2.2⟩) fun _ h => h

end Unica.Task
