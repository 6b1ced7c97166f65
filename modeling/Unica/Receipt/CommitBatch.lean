import Unica.Receipt.Commit

/-!
# The code that publishes, materializes and retires envelopes
-/

namespace Unica.Receipt

open Lib Lib.Prog List Disk Change

variable [ReceiptCodec] {V : Verdict → Prop} {w w' : World} {digest : ReceiptKeyDigest}
  {names : List BatchName}

/-- What copying an envelope row to a file has done where it stops. -/
def Materializing (w : World) (digest : ReceiptKeyDigest) (w' : World) : Prop :=
  Quiet w w' ∨ ∃ r : EncodedRecord, r.record.keyDigest = digest ∧ Change.Materializable w r
    ∧ w'.disk ∈ Change.cuts w (.materialize r)

theorem materializeBatchBackedRecord_ends (hfree : w.unavailable = false) :
    Ends V (materializeBatchBackedRecord digest) w
      (fun _ w' => (w' = w ∧ w.catalog.batchBacking.lookup digest = none)
        ∨ ∃ r, r.record.keyDigest = digest ∧ Materializable w r
          ∧ w' = apply w (.materialize r))
      (fun _ w' => Materializing w digest w') (Materializing w digest) := by
  refine .get_bind ?_
  split
  case h_1 hnone => exact .pure (.inl ⟨rfl, hnone⟩)
  case h_2 name hname =>
    refine .look (compute_observes _) (fun _ => .inl) fun entry hentry => ?_
    refine .look (readVerifiedReceiptBatch_observes name) (fun _ => .inl) fun rows hrows => ?_
    obtain ⟨envelope, henvelope, hdecoded⟩ := hrows
    refine .look (compute_observes _) (fun _ => .inl) fun row hrow => ?_
    refine .look (compute_observes _) (fun _ => .inl) fun _ hsame => ?_
    rw [okOr_eq_ok] at hentry hrow
    have hmem := mem_of_find?_eq_some hrow
    obtain rfl : row.record.keyDigest = digest := by simpa using find?_some hrow
    have hready : w.disk.rows.lookup row.record.keyDigest = none → Materializable w row :=
      fun habsent => ⟨hfree, habsent, ⟨name, envelope, rows, hname, henvelope, hdecoded, hmem⟩,
        entry, hentry, not_not.mp (refuseIf_eq_ok.mp hsame)⟩
    refine .bind (.mono publishNewRecord_ends (fun _ _ h => h) ?_ ?_) ?_
    · rintro _ w₁ (hq | ⟨-, habsent, hq⟩)
      · exact .inl hq
      · exact .inr ⟨row, rfl, hready habsent, by rw [hq.disk]; exact mem_cons_self⟩
    · rintro w₁ (hq | ⟨habsent, hq⟩)
      · exact .inl hq
      · exact .inr ⟨row, rfl, hready habsent, by rw [hq.disk]; exact mem_cons_self⟩
    rintro _ w₁ ⟨rfl, habsent⟩
    have hcut : ∀ w₂, Quiet (id (w.mapDisk (putRow row.record.keyDigest row.row))) w₂ →
        Materializing w row.record.keyDigest w₂ := fun w₂ hq =>
      .inr ⟨row, rfl, hready habsent, by rw [hq.disk]; exact mem_cons_self⟩
    refine .bind (.mono confirmCommittedRow_ends (fun _ _ h => h) (fun _ w₂ h => hcut w₂ h.1)
      hcut) ?_
    rintro _ w₂ ⟨rfl, -⟩
    exact .modify (.inr ⟨row, rfl, hready habsent, rfl⟩)

namespace Change

variable {P : Change → Prop}

theorem materialize_performs (hfree : w.unavailable = false)
    (hP : ∀ r, r.record.keyDigest = digest → P (.materialize r)) :
    (protocol P).Performs V (latchCatalogResult (materializeBatchBackedRecord digest)) w
      fun _ w' => (w' = w ∧ w.catalog.batchBacking.lookup digest = none)
        ∨ ∃ r, r.record.keyDigest = digest ∧ Materializable w r
          ∧ w' = apply w (.materialize r) := by
  have hstop : ∀ w', Materializing w digest w' → (protocol P).Interrupted w w' := by
    rintro w' (hq | ⟨r, hr, hready, hd⟩)
    · exact .of_quiet hq
    · exact ⟨w, .refl, .inr ⟨_, hP r hr, hready, hd⟩⟩
  refine .onError (.mono
    (materializeBatchBackedRecord_ends hfree) ?_ (fun _ _ h => h) hstop) ?_
  · rintro _ w' h
    refine ⟨?_, h⟩
    rcases h with ⟨rfl, -⟩ | ⟨r, hr, hready, rfl⟩
    · exact .refl
    · exact .single ⟨_, hP r hr, hready, rfl⟩
  · rintro _ w' h
    refine .inr ⟨rfl, ?_⟩
    rcases h with hq | ⟨r, hr, hready, hd⟩
    · exact .of_quiet (hq.trans (.latch w'))
    · exact ⟨w, .refl, .inr ⟨_, hP r hr, hready, hd⟩⟩

end Change

/-- Envelopes go one by one. -/
def Retiring (names : List BatchName) (w w' : World) : Prop :=
  ∃ done, done <+: names ∧ Quiet (w.mapDisk (Disk.removeBatches done)) w'

omit [ReceiptCodec] in
theorem Retiring.of_quiet (h : Quiet w w') : Retiring names w w' :=
  ⟨[], nil_prefix, h⟩

omit [ReceiptCodec] in
theorem Retiring.all (h : Quiet (w.mapDisk (removeBatches names)) w') : Retiring names w w' :=
  ⟨names, prefix_rfl, h⟩

omit [ReceiptCodec] in
theorem retireBatchLoop_ends (names : List BatchName) :
    Ends V (retireBatchLoop names) w (fun _ w' => w' = w.mapDisk (removeBatches names))
      (fun _ w' => Retiring names w w') (Retiring names w) := by
  induction names generalizing w with
  | nil => exact .pure rfl
  | cons name rest ih =>
    refine .look checkDeadline_observes (fun _ => .of_quiet) fun _ _ => ?_
    refine .look (io_observes _) (fun _ => .of_quiet) fun _ _ => ?_
    refine .get_bind ?_
    refine .look (compute_observes _) (fun _ => .of_quiet) fun _ _ => ?_
    refine .look (io_observes _) (fun _ => .of_quiet) fun _ _ => ?_
    refine .look (io_observes _) (fun _ => .of_quiet) fun _ _ => ?_
    refine .look (io_observes _) (fun _ => .of_quiet) fun _ _ => ?_
    refine .look (io_observes _) (fun _ => .of_quiet) fun _ _ => ?_
    refine .modify_bind ?_
    have hstep : ∀ w', Retiring rest (w.mapDisk (removeBatch name)) w' →
        Retiring (name :: rest) w w' := by
      rintro w' ⟨done, hdone, hq⟩
      exact ⟨name :: done, (prefix_cons_inj name).mpr hdone, hq⟩
    exact .mono ih (fun _ _ h => h) (fun _ => hstep) hstep

omit [ReceiptCodec] in
theorem retireReceiptBatchBackings_ends (names : List BatchName) :
    Ends V (retireReceiptBatchBackings names) w (fun _ w' => w' = w.mapDisk (removeBatches names))
      (fun _ w' => Retiring names w w') (Retiring names w) := by
  unfold retireReceiptBatchBackings
  split
  case isTrue hnil =>
    subst hnil
    exact .pure rfl
  case isFalse =>
    refine .bind (retireBatchLoop_ends names) fun _ w₁ hw₁ => ?_
    subst hw₁
    refine .look (io_observes _) (fun _ => .all) fun _ _ => ?_
    refine .look checkDeadline_observes (fun _ => .all) fun _ _ => ?_
    exact .mono verifyNamedAuthority_observes (fun _ _ h => h.1) (fun _ _ => .all) fun _ => .all

end Unica.Receipt
