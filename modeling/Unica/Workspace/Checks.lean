import Unica.Workspace.ApplyJournal

/-!
# What the checks of a retained apply establish

A check reads: whether it passes or not, the tree is as it was. What it found holds of
that tree.
-/

namespace Unica.Workspace

open Lib Lib.Call List Directory DirectoryRemoval Tree Option

variable {α : Type} {v v' : Volume} {m : Check α} {P : α → Prop} {e : ApplyErrorKind}
  {Q : α → Session → Prop} {s : Session}

/-- The call reads only, and a value it returns satisfies `P`. -/
abbrev Reads (m : Check α) (v : Volume) (P : α → Prop) : Prop :=
  Keeps (fun v v' => v.Reaches v.tree v') m v P

theorem strike_reads {site : Site} : Reads (strike site e) v fun _ => True :=
  fun _ ht => strike_ends ht (fun _ hv => ⟨hv, trivial⟩) fun _ hv _ => hv

theorem getTree_reads : Reads Call.get v fun w => w.tree = v.tree := .get fun _ ht => ht.tree

theorem ensure_reads {p : Prop} [Decidable p] : Reads (Call.ensure p e) v fun _ => p := .ensure id

theorem onVolume_ends {ε : Type} {m : Call Volume ε α} {E : ε → Session → Prop}
    (h : Ends m s.volume (fun a v => Q a { s with volume := v }) fun e v =>
      E e { s with volume := v }) : Ends (onVolume m) s Q E :=
  .zoom h

theorem Reads.onVolume {E : ApplyErrorKind → Session → Prop} (h : Reads m s.volume P)
    (hok : ∀ a v', s.volume.Reaches s.volume.tree v' → P a → Q a { s with volume := v' })
    (herr : ∀ e v', s.volume.Reaches s.volume.tree v' → E e { s with volume := v' }) :
    Ends (onVolume m) s Q E :=
  onVolume_ends (.imp (h _ .refl) (fun a v' h => hok a v' h.1 h.2) herr)

theorem checkpoint_reads : Reads checkpoint v fun _ => True := strike_reads

theorem inspectChild_reads {d : Nat} {n : Name} :
    Reads (inspectChild d n) v fun found => found = v.tree.lookup (d, n) :=
  .bind strike_reads fun _ _ => .bind getTree_reads fun w hw => .pure (by rw [hw])

theorem checkNamedIdentity_reads {directory : Directory} :
    Reads directory.checkNamedIdentity v fun _ => directory.namedIdentityMatches v.tree = true :=
  fun _ ht => .mapError (validateNamedIdentity_ends ht (fun _ hv hm => ⟨hv, hm⟩) fun _ _ hv _ => hv)

/-! ## Directories below a retained one -/

inductive Below (root : Directory) : List Name → Directory → Prop where
  | refl : Below root [] root
  | child {names : List Name} {directory : Directory} {name : Name} {identity : Nat}
      (h : Below root names directory) : Below root (names ++ [name]) (.child directory name identity)

namespace Below

variable {root directory : Directory} {names : List Name} {t : Tree}

theorem fullPath (h : Below root names directory) : directory.fullPath = root.fullPath ++ names := by
  induction h with
  | refl => exact (append_nil _).symm
  | child _ ih => rw [Directory.fullPath, ih, append_assoc]

theorem matches_root (h : Below root names directory)
    (hm : directory.namedIdentityMatches t = true) : root.namedIdentityMatches t = true := by
  induction h with
  | refl => exact hm
  | child _ ih => exact ih (matches_child.mp hm).1

end Below

variable {directory root : Directory} {names : List Name} {entry : Entry} {txn : Transaction}
  {route : List (Name × Nat)} {image : DirectoryImage}

/-! ## Validation before publication -/

theorem imageValidate_reads :
    Reads (image.validate directory) v fun _ => directory.namedIdentityMatches v.tree = true ∧
      directory.identity = image.identity ∧ image.stands v.tree = true := by
  refine .bind checkNamedIdentity_reads fun _ hm => ?_
  refine .bind getTree_reads fun w hw => ?_
  refine .bind ensure_reads fun _ hid => ?_
  refine .ensure fun hstands => ⟨hm, hid, ?_⟩
  rwa [hw] at hstands

/-- The directory a removal found, below the root of its plan. -/
structure DirectoryRemoval.Found (plan : DirectoryRemoval) (t : Tree) (parent : Directory)
    (name : Name) (directory : Directory) : Prop where
  way : ∃ names, plan.relative = names ++ [name] ∧ Below plan.root names parent
  directory_eq : directory = .child parent name plan.image.identity
  parent_matches : parent.namedIdentityMatches t = true
  linked : t.lookup (parent.identity, name) = some (.directory plan.image.identity)
  stands : plan.image.stands t = true

theorem walkSource_reads (hbelow : Below root names directory) :
    Reads (walkSource image directory route) v fun found =>
      ∃ before, names ++ route.map (·.1) = before ++ [found.2.1] ∧ Below root before found.1 ∧
        found.2.2 = .child found.1 found.2.1 image.identity ∧
        found.1.namedIdentityMatches v.tree = true ∧
        v.tree.lookup (found.1.identity, found.2.1) = some (.directory image.identity) ∧
        image.stands v.tree = true := by
  induction route generalizing names directory with
  | nil => exact .throw
  | cons step rest ih =>
    obtain ⟨part, identity⟩ := step
    unfold walkSource
    refine .bind checkpoint_reads fun _ _ => ?_
    refine .bind checkNamedIdentity_reads fun _ hmatch => ?_
    refine .bind ensure_reads fun _ _ => ?_
    refine .bind inspectChild_reads fun found hfound => ?_
    rcases found with _ | _ | child
    · exact .throw
    · exact .throw
    · dsimp only
      cases rest with
      | nil =>
        refine .bind imageValidate_reads fun _ himage => .pure ?_
        obtain ⟨-, hid, hstands⟩ := himage
        obtain rfl : child = image.identity := hid
        exact ⟨names, rfl, hbelow, rfl, hmatch, hfound.symm, hstands⟩
      | cons next rest =>
        have hchild : Below root (names ++ [part]) (.child directory part child) := hbelow.child
        refine (ih hchild).imp fun found h => ?_
        simpa only [map_cons, append_assoc, singleton_append] using h

theorem validateSource_reads {plan : DirectoryRemoval} :
    Reads plan.validateSource v fun found => plan.Found v.tree found.1 found.2.1 found.2.2 := by
  refine .bind checkpoint_reads fun _ _ => ?_
  refine (walkSource_reads .refl).imp fun found h => ?_
  obtain ⟨before, hnames, hbelow, hdirectory, hmatch, hlink, hstands⟩ := h
  exact ⟨⟨before, hnames, hbelow⟩, hdirectory, hmatch, hlink, hstands⟩

theorem walkRoute_reads (hbelow : Below root names directory) :
    Reads (walkRoute directory route) v fun ancestor =>
      Below root (names ++ route.map (·.1)) ancestor ∧
        v.tree.resolve directory.identity (route.map (·.1)) = some ancestor.identity := by
  induction route generalizing names directory with
  | nil => exact .pure ⟨by rwa [map_nil, append_nil], rfl⟩
  | cons step rest ih =>
    obtain ⟨name, expected⟩ := step
    refine .bind checkpoint_reads fun _ _ => ?_
    refine .bind inspectChild_reads fun found hfound => ?_
    rcases found with _ | _ | child
    · exact .throw
    · exact .throw
    · refine .bind ensure_reads fun _ _ => ?_
      have hchild : Below root (names ++ [name]) (.child directory name child) := hbelow.child
      refine (ih hchild).imp fun ancestor h => ⟨?_, ?_⟩
      · simpa only [map_cons, append_assoc, singleton_append] using h.1
      · simp only [map_cons, resolve, ← hfound]
        exact h.2

/-- The path of the parents an entry found. -/
def Entry.base (e : Entry) : List Name := e.root.fullPath ++ e.route.map (·.1)

/-- What a binding says of its entry before the call. -/
structure Binding.Fits (b : Binding) (t : Tree) (e : Entry) : Prop where
  below : Below e.root (e.route.map (·.1)) b.ancestor
  way : t.resolve top e.base = some b.ancestor.identity
  missing : ∀ first rest, e.missing = first :: rest →
    e.original = none ∧ t.lookup (b.ancestor.identity, first) = none
  absent : e.missing = [] → e.original = none → t.lookup (b.ancestor.identity, e.name) = none
  present : ∀ original, e.missing = [] → e.original = some original → ∃ identity,
    t.lookup (b.ancestor.identity, e.name) = some (.file identity 1 original) ∧
      b.originalFile = some ⟨b.ancestor, e.name, identity⟩

theorem Binding.Fits.resolve {b : Binding} {t t' : Tree} {e : Entry} (h : b.Fits t e)
    (hm : b.ancestor.namedIdentityMatches t' = true) :
    t'.resolve top e.base = some b.ancestor.identity := by
  have hway := matches_resolve hm
  rwa [h.below.fullPath] at hway

theorem retainExecutionBinding_reads : Reads (retainExecutionBinding entry) v fun b =>
      entry.root.namedIdentityMatches v.tree = true ∧ b.Fits v.tree entry := by
  refine .bind checkpoint_reads fun _ _ => ?_
  refine .bind checkNamedIdentity_reads fun _ hroot => ?_
  refine .bind (walkRoute_reads .refl) fun ancestor hbelow => ?_
  refine .bind checkpoint_reads fun _ _ => ?_
  obtain ⟨hbelow, hway⟩ := hbelow
  replace hway : v.tree.resolve top entry.base = some ancestor.identity := by
    unfold Entry.base
    rw [resolve_append, matches_resolve hroot]
    exact hway
  rcases hmissing : entry.missing with _ | ⟨first, rest⟩
  · dsimp only
    refine .bind inspectChild_reads fun found hfound => ?_
    rcases found with _ | ⟨identity, links, bytes⟩ | _
    · dsimp only
      refine .bind ensure_reads
        fun _ hnone => .pure ⟨hroot, hbelow, hway, ?_, fun _ _ => hfound.symm, ?_⟩
      · intro first rest h
        rw [hmissing] at h
        cases h
      · intro original _ h
        rw [hnone] at h
        cases h
    · dsimp only
      rcases entry.originalIdentity with _ | expected
      · exact .throw
      · rcases horiginal : entry.original with _ | original
        · exact .throw
        · dsimp only
          refine .bind ensure_reads fun _ hlinks => .bind ensure_reads fun _ _ => ?_
          refine .bind ensure_reads fun _ hbytes => .pure ⟨hroot, hbelow, hway, ?_, ?_, ?_⟩
          · intro first rest h
            rw [hmissing] at h
            cases h
          · intro _ h
            rw [horiginal] at h
            cases h
          · intro original' _ h
            rw [horiginal] at h
            cases h
            subst hlinks hbytes
            exact ⟨identity, hfound.symm, rfl⟩
    · exact .throw
  · dsimp only
    refine .bind ensure_reads fun _ hnone => .bind inspectChild_reads fun found hfound => ?_
    rcases found with _ | _
    · refine .pure ⟨hroot, hbelow, hway, ?_, ?_, ?_⟩
      · intro first' rest' h
        rw [hmissing] at h
        cases h
        exact ⟨hnone, hfound.symm⟩
      · intro h
        rw [hmissing] at h
        cases h
      · intro _ h
        rw [hmissing] at h
        cases h
    · exact .throw

/-- An entry as the transaction works with it. -/
structure Transaction.Bound (txn : Transaction) (t : Tree) (e : Entry) (b : Binding) : Prop where
  mem : e ∈ txn.entries
  root : e.root.namedIdentityMatches t = true
  fits : txn.directoryContains e = false → b.Fits t e
  contained : txn.directoryContains e = true →
    e.current = none ∧ b.originalFile = none ∧ (e.original = none ∨ e.missing = [])

theorem bindAll_reads {entries : List Entry} (hmem : ∀ e ∈ entries, e ∈ txn.entries)
    (hremoved : ∀ e ∈ txn.entries, txn.directoryContains e = true → e.current = none) :
    Reads (txn.bindAll entries) v fun bound => bound.map (·.1) = entries ∧
      ∀ x ∈ bound, txn.Bound v.tree x.1 x.2 := by
  induction entries with
  | nil => exact .pure ⟨rfl, fun _ h => absurd h not_mem_nil⟩
  | cons entry rest ih =>
    refine .bind retainExecutionBinding_reads fun b hbinding => ?_
    obtain ⟨hroot, hfits⟩ := hbinding
    refine .bind (ih fun e he => hmem e (mem_cons_of_mem _ he)) fun bound hbound => ?_
    have hentry := hmem entry mem_cons_self
    by_cases hin : txn.directoryContains entry = true
    · rw [if_pos hin]
      refine .pure ⟨by rw [map_cons, hbound.1], ?_⟩
      refine forall_mem_cons.mpr ⟨⟨hentry, hroot, ?_, fun _ => ⟨hremoved _ hentry hin, rfl, ?_⟩⟩,
        hbound.2⟩
      · intro hout
        rw [hin] at hout
        cases hout
      · rcases hmissing : entry.missing with _ | ⟨first, rest⟩
        · exact .inr rfl
        · exact .inl (hfits.missing _ _ hmissing).1
    · rw [if_neg hin]
      refine .pure ⟨by rw [map_cons, hbound.1], ?_⟩
      exact forall_mem_cons.mpr ⟨⟨hentry, hroot, fun _ => hfits, fun h => absurd h hin⟩, hbound.2⟩

theorem validateDirectoryPlans_reads {prior plans : List DirectoryRemoval} :
    Reads (txn.validateDirectoryPlans prior plans) v fun _ => ∀ plan ∈ plans, ∀ e ∈ txn.entries,
      plan.root.identity = e.root.identity → plan.contains e.relativePath = true →
        e.current = none := by
  induction plans generalizing prior with
  | nil => exact .pure fun _ h => absurd h not_mem_nil
  | cons plan rest ih =>
    refine .bind ensure_reads fun _ _ => .bind ensure_reads fun _ _ => ?_
    refine .bind (.ensure (P := fun _ => ∀ e ∈ txn.entries,
      plan.root.identity = e.root.identity → plan.contains e.relativePath = true →
        e.current = none) fun hall e he hroot hcontains => ?_) fun _ hplan => ?_
    · have h := all_eq_true.mp hall e he
      simp only [hroot, hcontains, decide_true, Bool.true_and, Bool.and_true,
        Bool.not_eq_true', isSome_eq_false_iff, isNone_iff_eq_none] at h
      exact h
    · refine .bind validateSource_reads fun _ _ => ?_
      exact ih.imp fun _ hrest => forall_mem_cons.mpr ⟨hplan, hrest⟩

/-- Validation reads the tree and binds every entry to it. -/
theorem validateAndBind_reads :
    Reads txn.validateRetainedForApplyAndBind v fun bound =>
      bound.1.map (·.1) = txn.source ∧ bound.2.map (·.1) = txn.cache ∧
        ∀ x ∈ bound.1 ++ bound.2, txn.Bound v.tree x.1 x.2 := by
  refine .bind strike_reads fun _ _ => .bind getTree_reads fun _ _ => ?_
  refine .bind ensure_reads fun _ _ => .bind validateDirectoryPlans_reads fun _ hplans => ?_
  have hremoved : ∀ e ∈ txn.entries, txn.directoryContains e = true → e.current = none := by
    intro e he hin
    obtain ⟨plan, hplan, hcond⟩ := any_eq_true.mp hin
    rw [Bool.and_eq_true, decide_eq_true_eq] at hcond
    exact hplans plan hplan e he hcond.1 hcond.2
  refine .bind (bindAll_reads (fun e he => mem_append_left _ he) hremoved)
    fun source hsource => ?_
  refine .bind (bindAll_reads (fun e he => mem_append_right _ he) hremoved)
    fun cache hcache => .pure ⟨hsource.1, hcache.1, ?_⟩
  intro x hx
  rcases mem_append.mp hx with hx | hx
  · exact hsource.2 x hx
  · exact hcache.2 x hx

/-! ## Validation after publication -/

/-- What a name holds: nothing, or one file with these bytes. -/
def Tree.Shows (t : Tree) (k : Key) : Option Bytes → Prop
  | none => t.lookup k = none
  | some bytes => ∃ identity, t.lookup k = some (.file identity 1 bytes)

theorem validateStateAtParent_reads {parent : Directory} {expected : Option Bytes} :
    Reads (validateStateAtParent entry parent expected) v fun _ =>
      parent.namedIdentityMatches v.tree = true ∧
        v.tree.Shows (parent.identity, entry.name) expected := by
  refine .bind checkNamedIdentity_reads fun _ hmatch => ?_
  refine .bind inspectChild_reads fun found hfound => ?_
  rcases found with _ | ⟨identity, links, bytes⟩ | _
  · refine .ensure fun hnone => ⟨hmatch, ?_⟩
    rw [hnone]
    exact hfound.symm
  · dsimp only
    refine .bind ensure_reads fun _ hlinks => ?_
    refine .ensure fun hsome => ⟨hmatch, ?_⟩
    rw [hsome]
    exact ⟨identity, hlinks ▸ hfound.symm⟩
  · exact .throw

theorem validateDisplacedPreimage_reads {displaced : RegularFile} {expected : Bytes} :
    Reads (validateDisplacedPreimage displaced expected) v fun _ => True := by
  refine .bind inspectChild_reads fun found _ => ?_
  rcases found with _ | ⟨identity, links, bytes⟩ | _
  · exact .throw
  · exact .bind ensure_reads fun _ _ => .ensure fun _ => trivial
  · exact .throw

theorem validateJournalRecoveries_reads {published : List PublishedChange} :
    Reads (validateJournalRecoveries root published) v fun _ => True := by
  refine .bind checkNamedIdentity_reads fun _ _ => ?_
  refine (Keeps.each (I := fun _ => True) fun c _ => ?_).imp fun _ _ => trivial
  rcases c.recoveryName with _ | recoveryName <;> rcases c.displaced with _ | recovery
  · exact .pure trivial
  · exact .throw
  · exact .throw
  · refine .bind checkNamedIdentity_reads fun _ _ => ?_
    refine .bind inspectChild_reads fun found _ => ?_
    rcases found with _ | ⟨identity, links, bytes⟩ | _
    · exact .throw
    · exact .bind ensure_reads fun _ _ => .ensure fun _ => trivial
    · exact .throw

theorem removalValidate_reads {r : PublishedRemoval} :
    Reads r.validate v fun _ => r.recovery.namedIdentityMatches v.tree = true := by
  refine .bind imageValidate_reads fun _ himage => ?_
  refine .bind inspectChild_reads fun found _ => ?_
  rcases found with _ | _
  · exact .pure himage.1
  · exact .throw

/-- An entry that stays absent below missing parents: nothing is at its path. -/
theorem observeAbsent_reads {parent : Directory} :
    Reads (observeAbsent entry parent names) v fun _ =>
      ∀ d, v.tree.resolve parent.identity names = some d →
        v.tree.lookup (d, entry.name) = none := by
  induction names generalizing parent with
  | nil =>
    refine validateStateAtParent_reads.imp fun _ h d hd => ?_
    cases hd
    exact h.2
  | cons name rest ih =>
    refine .bind inspectChild_reads fun found hfound => ?_
    rcases found with _ | _ | child
    · refine .pure fun d hd => ?_
      simp only [resolve, ← hfound] at hd
      cases hd
    · exact .throw
    · refine .imp ih fun _ h d hd => ?_
      simp only [resolve, ← hfound] at hd
      exact h d hd

/-! ## Checks of a session -/

/-- The call leaves the tree and the journals alone, and a value it returns satisfies `P`. -/
abbrev Observes (m : Apply α) (s : Session) (P : α → Prop) : Prop :=
  Keeps (fun s s' => ∃ v', s' = { s with volume := v' } ∧ s.volume.Reaches s.volume.tree v') m s P

theorem onVolume_observes (h : Reads m s.volume P) : Observes (onVolume m) s P := by
  rintro _ ⟨v, rfl, hv⟩
  exact onVolume_ends ((h v hv).imp (fun _ v' h => ⟨⟨v', rfl, h.1⟩, h.2⟩) fun _ v' h => ⟨v', rfl, h⟩)

end Unica.Workspace
