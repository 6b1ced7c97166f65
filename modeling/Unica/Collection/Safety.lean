import Unica.Collection.Pact

/-!
# Collection of idle states

Each program keeps to the pact. Then over any run of any number of collectors, frontends and
daemons: a collector moves the directory it locked and no other, never its own build's; no daemon
serves it later; and nothing the sampling could see was written within the idle period, unless the
directory was written to once the sampling had begun.
-/

namespace Unica.Collection

open Lib Root Function Option Routine Directory List

/-! ## Calls -/

variable {root : Root}

section Calls

variable {role : Role} {pid : Nat} {P : Root → Prop} {name : Name}

theorem Root.directoryAt_eq_some {id : Nat} :
    root.directoryAt name = some id ↔ root.names name = some (.directory id) := by
  unfold directoryAt
  split
  · rename_i found hname
    rw [hname]
    simp
  · rename_i hnone
    constructor
    · intro h
      cases h
    · intro h
      exact (hnone id h).elim

/-- A call is refused and changes nothing, or is performed. -/
theorem call_holds {op : Op} {post : Answer op → Root → Prop}
    (hpost : ∀ answer, pact.Stable pid (post answer)) (hgives : ∀ t, P t → gives role pid op t)
    (hrefused : ∀ t, P t → post (refusal op) t) (hact : ∀ t choice, Inv t → P t →
      post (perform pid choice t op).1 (perform pid choice t op).2) :
    Ensures pact role pid P (ask op) post := by
  refine .ask hpost hgives fun t choice ht hPt => ?_
  show post (act pid op choice t).1 (act pid op choice t).2
  unfold act
  split
  · exact hrefused t hPt
  · exact hact t choice ht hPt

section

variable (hP : pact.Stable pid P)
include hP

/-- A call whose answer says nothing that is used. -/
theorem ask_holds (op : Op) (hgives : ∀ t, P t → gives role pid op t)
    (hact : ∀ t choice, Inv t → P t → P (perform pid choice t op).2) :
    Ensures pact role pid P (ask op) fun _ => P :=
  call_holds (fun _ => hP) hgives (fun _ h => h) hact

theorem verifyOwnerOnly_holds : Ensures pact role pid P (ask .verifyOwnerOnly) fun _ => P :=
  ask_holds hP .verifyOwnerOnly (fun _ _ => trivial) fun _ _ _ h => h

theorem openChild_holds : Ensures pact role pid P (ask (.openChild name)) fun _ => P :=
  ask_holds hP (.openChild name) (fun _ _ => trivial) fun _ _ _ h => h

/-- Where the child is found, a fact that lasts follows from its being there. -/
theorem openAuthority_holds {id : Nat} {Q : Nat → Root → Prop}
    (hQ : ∀ authority, pact.Stable pid (Q authority)) (hPQ : ∀ t authority time, Inv t → P t →
      (t.directories id).authority = some (authority, time) → Q authority t) :
    Ensures pact role pid P (ask (.openAuthority id)) fun answer t => P t ∧ ∀ authority,
      answer = .found authority → Q authority t := by
  refine call_holds (fun _ => hP.and (.all hQ)) (fun _ _ => trivial) (fun t h => ⟨h, nofun⟩)
    fun t choice ht hPt => ⟨hPt, fun authority hfound => ?_⟩
  unfold perform at hfound
  dsimp only at hfound
  split at hfound
  · rename_i found time hchild
    cases hfound
    exact hPQ t authority time ht hPt hchild
  · cases hfound

end

theorem Serves.put {id authority : Nat}
    (h : Serves root pid name id authority) (changed : Nat) (change : Change) :
    Serves (root.put changed change) pid name id authority := by
  obtain ⟨time, hchild⟩ := h.child
  refine ⟨h.named, ⟨time, ?_⟩, h.lock⟩
  by_cases heq : id = changed
  · rw [heq] at hchild ⊢
    rw [show (root.put changed change).directories changed = _ from update_self ..,
      apply_authority]
    exact hchild
  · rw [show (root.put changed change).directories id = _ from update_of_ne heq ..]
    exact hchild

/-- A directory away from its name is no nearer to it without some of its children. -/
theorem Root.away_strip {id : Nat} (h : id < root.nextDirectory ∧ ¬ root.AtHome id) (child : Child) :
    id < (root.setDirectory id (stripped (root.directories id) root.clock child)).nextDirectory ∧
      ¬ (root.setDirectory id (stripped (root.directories id) root.clock child)).AtHome id := by
  refine ⟨h.1, fun hhome => h.2 ?_⟩
  rw [AtHome, show (root.setDirectory id _).directories id = _ from update_self ..] at hhome
  cases child with
  | authority => exact hhome
  | other name => exact hhome

end Calls

/-! ## Opening and locking -/

section Programs

variable {role : Role} {pid : Nat} {name : Name} {id : Nat} {P Q : Root → Prop}
variable {attempts authority entries : Nat} {idle now : Time} {identity : CoreIdentity}

section

variable (hP : pact.Stable pid P)
include hP

theorem isNamed_holds (hQ : pact.Stable pid Q)
    (hPQ : ∀ t, Inv t → P t → t.names name = some (.directory id) → Q t) :
    Ensures pact role pid P (isNamed name id) fun b t => P t ∧ (b = true → Q t) := by
  have hlook : Ensures pact role pid P (ask (.openPath name)) fun found t =>
      P t ∧ (found = some id → Q t) := by
    refine call_holds (fun _ => hP.and (.imp fun _ => hQ)) (fun _ _ => trivial)
      (fun t h => ⟨h, nofun⟩) fun t choice ht hPt => ⟨hPt, fun hfound => ?_⟩
    exact hPQ t ht hPt (directoryAt_eq_some.mp hfound)
  exact hlook.bind fun found => .pure fun t h => ⟨h.1, fun hb => h.2 (beq_iff_eq.mp hb)⟩

theorem verifyIdentity_holds (hQ : pact.Stable pid Q)
    (hPQ : ∀ t, Inv t → P t → t.names name = some (.directory id) → Q t) :
    Ensures pact role pid P (verifyIdentity name id) fun b t => P t ∧ (b = true → Q t) := by
  refine (isNamed_holds hP hQ hPQ).bind fun b => ?_
  split
  · rename_i hnamed
    refine ((verifyOwnerOnly_holds (hP.and hQ)).pre fun t h => ⟨h.1, h.2 hnamed⟩).bind
      fun owned => ?_
    exact .pure fun t h => ⟨h.1, fun _ => h.2⟩
  · exact .pure fun t h => ⟨h.1, nofun⟩

theorem admitDirectory_holds : Ensures pact role pid P (admitDirectory name id) fun _ => P := by
  refine (verifyOwnerOnly_holds hP).bind fun owned => ?_
  split
  · refine (isNamed_holds hP hP fun _ _ h _ => h).bind fun b => ?_
    split
    · refine ((isNamed_holds hP hP fun _ _ h _ => h).pre fun _ h => h.1).bind fun b => ?_
      split
      · exact .pure fun _ h => h.1
      · exact .pure fun _ h => h.1
    · exact .pure fun _ h => h.1
  · exact .pure fun _ h => h

theorem openFound_holds : Ensures pact role pid P (openFound name) fun _ => P := by
  refine (openChild_holds hP).bind fun answer => ?_
  split
  · exact admitDirectory_holds hP
  · exact .pure fun _ h => h

/-- Opening a state directory proves nothing that lasts. -/
theorem openWith_existing_holds : Ensures pact role pid P (openWith name false) fun _ => P := by
  refine (openChild_holds hP).bind fun answer => ?_
  split
  · exact admitDirectory_holds hP
  · exact .pure fun _ h => h
  · exact .pure fun _ h => h

end

theorem openWith_holds {create : Bool} (htrash : ¬ IsTrash name) :
    Ensures pact role pid (fun _ => True) (openWith name create) fun _ _ => True := by
  refine (openChild_holds .const).bind fun answer => ?_
  split
  · exact admitDirectory_holds .const
  · exact .pure fun _ h => h
  · split
    · refine (ask_holds .const (.makeChild name) (fun _ _ => htrash) fun _ _ _ h => h).bind
        fun answer => ?_
      split
      · exact openFound_holds .const
      · exact openFound_holds .const
      · exact .pure fun _ h => h
    · exact .pure fun _ h => h

/-! ## The authority child -/

section

variable (hP : pact.Stable pid P)
include hP

theorem openAuthorityChild_holds {Q : Nat → Root → Prop}
    (hQ : ∀ authority, pact.Stable pid (Q authority)) (hPQ : ∀ t authority time, Inv t → P t →
      (t.directories id).authority = some (authority, time) → Q authority t) :
    Ensures pact role pid P (openAuthority id) fun answer t => P t ∧ ∀ authority,
      answer = some authority → Q authority t := by
  refine (openAuthority_holds hP hQ hPQ).bind fun answer => ?_
  split
  · rename_i authority
    refine .pure fun t h => ⟨h.1, fun found hfound => ?_⟩
    cases hfound
    exact h.2 authority rfl
  · exact .pure fun t h => ⟨h.1, nofun⟩

/-- The parent by its path, then the child: what follows from the first must last until the
second. -/
theorem validateAuthority_holds {R : Root → Prop} (hQ : pact.Stable pid Q) (hR : pact.Stable pid R)
    (hPQ : ∀ t, Inv t → P t → t.names name = some (.directory id) → Q t)
    (hQR : ∀ t time, Inv t → Q t → (t.directories id).authority = some (authority, time) → R t) :
    Ensures pact role pid P (validateAuthority name id authority) fun b t =>
      P t ∧ (b = true → R t) := by
  refine (isNamed_holds hP hQ hPQ).bind fun b => ?_
  split
  · have hopen : Ensures pact role pid (fun t => P t ∧ Q t) (openAuthority id) fun answer t =>
        (P t ∧ Q t) ∧ ∀ found, answer = some found → found = authority → R t := by
      refine openAuthorityChild_holds (hP.and hQ) (fun found => .imp fun _ => hR)
        fun u found time hu hPQu hchild heq => ?_
      exact hQR u time hu hPQu.2 (heq ▸ hchild)
    refine (hopen.pre fun t h => ⟨h.1, h.2 rfl⟩).bind fun answer => ?_
    exact .pure fun t h => ⟨h.1.1, fun heq => h.2 authority (beq_iff_eq.mp heq) rfl⟩
  · exact .pure fun t h => ⟨h.1, nofun⟩

theorem createPrivateSubdirectory_holds
    (hmade : ∀ t, Inv t → P t → (t.directories id).authority = none → P (t.makeAuthority id)) :
    Ensures pact role pid P (createPrivateSubdirectory name id) fun _ => P := by
  have howned : Ensures pact role pid P (ask .verifyOwnerOnly) fun _ => P :=
    verifyOwnerOnly_holds hP
  refine (verifyIdentity_holds hP hP fun _ _ h _ => h).bind fun b => ?_
  split
  · have hopen : Ensures pact role pid P (ask (.openAuthority id)) _ :=
      openAuthority_holds hP (fun _ => hP) fun _ _ _ _ h _ => h
    refine (hopen.pre fun _ h => h.1).bind fun answer => ?_
    split
    · refine (howned.pre fun _ h => h.1).bind fun owned => ?_
      split
      · exact .pure fun _ h => h
      · exact .pure fun _ h => h
    · exact .pure fun _ h => h.1
    · have hmake : Ensures pact role pid P (ask (.makeAuthority id)) fun _ => P := by
        refine ask_holds hP (.makeAuthority id) (fun _ _ => trivial) fun v choice hv hPv => ?_
        simp only [perform]
        split
        · exact hPv
        · rename_i hnone
          exact hmade v hv hPv hnone
      refine (hmake.pre fun _ h => h.1).bind fun answer => ?_
      split
      · exact .pure fun _ h => h
      · refine (openAuthorityChild_holds hP (fun _ => hP) fun _ _ _ _ h _ => h).bind
          fun answer => ?_
        split
        · refine (howned.pre fun _ h => h.1).bind fun owned => ?_
          split
          · exact .pure fun _ h => h
          · exact .pure fun _ h => h
        · exact .pure fun _ h => h.1
  · exact .pure fun _ h => h.1

/-- An authority child that is returned was the named one of the named directory. -/
theorem createPrivateRetainedSubdirectory_holds {R : Nat → Root → Prop} (hQ : pact.Stable pid Q)
    (hR : ∀ authority, pact.Stable pid (R authority))
    (hmade : ∀ t, Inv t → P t → (t.directories id).authority = none → P (t.makeAuthority id))
    (hPQ : ∀ t, Inv t → P t → t.names name = some (.directory id) → Q t)
    (hQR : ∀ t authority time, Inv t → Q t →
      (t.directories id).authority = some (authority, time) → R authority t) :
    Ensures pact role pid P (createPrivateRetainedSubdirectory name id) fun answer t => P t ∧
      ∀ authority, answer = some authority → R authority t := by
  refine (createPrivateSubdirectory_holds hP hmade).bind fun answer => ?_
  split
  · rename_i authority
    refine (openAuthorityChild_holds hP (fun _ => hP) fun _ _ _ _ h _ => h).bind
      fun retained => ?_
    split
    · have hvalid : Ensures pact role pid P (validateAuthority name id authority) _ :=
        validateAuthority_holds hP hQ (hR authority) hPQ fun v time hv hQv hchild =>
          hQR v authority time hv hQv hchild
      refine (hvalid.pre fun _ h => h.1).bind fun b => ?_
      split
      · refine .pure fun v h => ⟨h.1, fun found hfound => ?_⟩
        cases hfound
        exact h.2 rfl
      · exact .pure fun v h => ⟨h.1, nofun⟩
    · exact .pure fun u h => ⟨h.1, nofun⟩
  · exact .pure fun t h => ⟨h, nofun⟩

/-! ## The locks -/

/-- The lock is held where it is reported. -/
theorem lockSpawn_holds
    (hlock : ∀ t, P t → P { t with spawnLock := update t.spawnLock id (some pid) }) :
    Ensures pact role pid P (ask (.lockSpawn id)) fun answer t => P t ∧
      (answer = .locked → t.spawnLock id = some pid) := by
  refine call_holds (fun _ => hP.and (.imp fun _ => stable_spawn)) (fun _ _ => trivial)
    (fun _ h => ⟨h, fun hlocked => by cases hlocked⟩) fun t choice ht hPt => ?_
  simp only [perform]
  split
  · exact ⟨hPt, fun hlocked => by cases hlocked⟩
  · exact ⟨hlock t hPt, fun _ => update_self ..⟩

theorem lockAuthority_holds (hlock : ∀ t, P t →
      P { t with authorityLock := update t.authorityLock authority (some pid) }) :
    Ensures pact role pid P (ask (.lockAuthority authority)) fun answer t => P t ∧
      (answer = .locked → t.authorityLock authority = some pid) := by
  refine call_holds (fun _ => hP.and (.imp fun _ => stable_lock)) (fun _ _ => trivial)
    (fun _ h => ⟨h, fun hlocked => by cases hlocked⟩) fun t choice ht hPt => ?_
  simp only [perform]
  split
  · exact ⟨hPt, fun hlocked => by cases hlocked⟩
  · exact ⟨hlock t hPt, fun _ => update_self ..⟩

theorem trySpawnLock_holds
    (hlock : ∀ t, P t → P { t with spawnLock := update t.spawnLock id (some pid) }) :
    Ensures pact role pid P (trySpawnLock name id) fun b t => P t ∧
      (b = true → t.spawnLock id = some pid) := by
  refine (verifyIdentity_holds hP hP fun _ _ h _ => h).bind fun b => ?_
  split
  · refine ((lockSpawn_holds hP hlock).pre fun _ h => h.1).bind fun answer => ?_
    split
    · exact .pure fun u h => ⟨h.1, fun _ => h.2 rfl⟩
    · exact .pure fun u h => ⟨h.1, nofun⟩
  · exact .pure fun t h => ⟨h.1, nofun⟩

end

/-- With the spawn lock held, the name proved after it and the authority locked, the process
holds both locks of the named directory. -/
theorem tryAcquire_holds (htrash : ¬ IsTrash name) (hP : pact.Stable pid P)
    (hmade : ∀ t, Inv t → P t → (t.directories id).authority = none → P (t.makeAuthority id))
    (hlock : ∀ t authority, P t →
      P { t with authorityLock := update t.authorityLock authority (some pid) }) :
    Ensures pact role pid (fun t => P t ∧ t.spawnLock id = some pid) (tryAcquire name id)
      fun answer t => P t ∧ ∀ authority, answer = some authority →
        Owns t pid name id authority := by
  have hlocks : pact.Stable pid fun t => P t ∧ Locks t pid name id := hP.and (stable_locks htrash)
  refine (verifyIdentity_holds (hP.and stable_spawn) hlocks
    fun t _ h hname => ⟨h.1, hname, h.2⟩).bind fun b => ?_
  split
  · have hcreate : Ensures pact role pid (fun t => P t ∧ Locks t pid name id)
        (createPrivateRetainedSubdirectory name id) _ :=
      createPrivateRetainedSubdirectory_holds hlocks hlocks
        (fun authority => stable_locks_child htrash)
        (fun u hu h hfree => ⟨hmade u hu h.1 hfree, h.2.named, h.2.spawn⟩) (fun _ _ h _ => h)
        fun u authority time _ h hchild => ⟨h.2, time, hchild⟩
    refine (hcreate.pre fun t h => h.2 rfl).bind fun answer => ?_
    split
    · rename_i authority
      have hchild : pact.Stable pid fun t => P t ∧ Locks t pid name id ∧
          ∃ time, (t.directories id).authority = some (authority, time) :=
        hP.and (stable_locks_child htrash)
      refine ((lockAuthority_holds hchild fun v hv =>
        ⟨hlock v authority hv.1, ⟨hv.2.1.named, hv.2.1.spawn⟩, hv.2.2⟩).pre
        fun u h => ⟨h.1.1, h.2 authority rfl⟩).bind fun answer => ?_
      split
      · refine .pure fun v h => ⟨h.1.1, fun found hfound => ?_⟩
        cases hfound
        exact ⟨⟨h.1.2.1.named, h.1.2.2, h.2 rfl⟩, h.1.2.1.spawn⟩
      · exact .pure fun v h => ⟨h.1.1, nofun⟩
    · exact .pure fun u h => ⟨h.1.1, nofun⟩
  · exact .pure fun t h => ⟨h.1.1, nofun⟩

/-- The lock is held while the parent and the child are proved, and the child cannot return once
it is gone, so that the directory is under its name when the second proof is made. -/
theorem awaitAuthority_holds (htrash : ¬ IsTrash name) :
    Ensures pact role pid (fun t => authority < t.nextAuthority)
      (awaitAuthority name id authority attempts) fun b t => authority < t.nextAuthority ∧
        (b = true → Serves t pid name id authority) := by
  have hheld : pact.Stable pid fun t => authority < t.nextAuthority ∧
      t.authorityLock authority = some pid := stable_allocated.and stable_lock
  -- The name holds wherever the child is still there.
  have hproved : pact.Stable pid fun t => (authority < t.nextAuthority ∧
      t.authorityLock authority = some pid) ∧ ∀ time,
        (t.directories id).authority = some (authority, time) →
          t.names name = some (.directory id) := by
    rintro t u ht hu hrely ⟨⟨hlt, hlock⟩, hname⟩
    refine ⟨hheld t u ht hu hrely ⟨hlt, hlock⟩, fun time hchild => ?_⟩
    have hbefore := hrely.back id authority time hlt hchild
    exact hrely.named ht htrash (hname time hbefore) (.inr ⟨authority, time, hbefore, hlock⟩)
  induction attempts with
  | zero => exact .pure fun _ h => ⟨h, nofun⟩
  | succ attempts ih =>
    refine (lockAuthority_holds stable_allocated fun _ h => h).bind fun answer => ?_
    split
    · refine ((validateAuthority_holds hheld hproved (stable_serves htrash)
        (fun u _ h hname => ⟨h, fun _ _ => hname⟩)
        fun u time _ h hchild => ⟨h.2 time hchild, ⟨time, hchild⟩, h.1.2⟩).pre
        fun t h => ⟨h.1, h.2 rfl⟩).bind fun b => ?_
      split
      · rename_i hb
        exact .pure fun u h => ⟨h.1.1, fun _ => h.2 hb⟩
      · have hunlock : Ensures pact role pid (fun t => authority < t.nextAuthority)
            (ask (.unlockAuthority authority)) fun _ t => authority < t.nextAuthority := by
          refine ask_holds stable_allocated _ (fun _ _ => trivial) fun v choice _ hv => ?_
          simp only [perform]
          split <;> exact hv
        exact (hunlock.pre fun u h => h.1.1).bind fun _ => .pure fun v h => ⟨h, nofun⟩
    · exact ih.pre fun t h => h.1
    · exact .pure fun t h => ⟨h.1, nofun⟩

theorem acquire_holds (htrash : ¬ IsTrash name) :
    Ensures pact role pid (fun _ => True) (acquire name id attempts) fun answer t =>
      ∀ authority, answer = some authority → Serves t pid name id authority := by
  refine (verifyIdentity_holds .const .const fun _ _ h _ => h).bind fun b => ?_
  split
  · have hcreate : Ensures pact role pid (fun _ => True)
        (createPrivateRetainedSubdirectory name id) fun answer t => True ∧ ∀ authority,
          answer = some authority → authority < t.nextAuthority :=
      createPrivateRetainedSubdirectory_holds .const .const (fun _ => stable_allocated)
        (fun _ _ h _ => h) (fun _ _ h _ => h)
        fun u authority time hu _ hchild => hu.authorities id authority time hchild
    refine (hcreate.pre fun _ h => h.1).bind fun answer => ?_
    split
    · rename_i authority
      refine ((verifyOwnerOnly_holds stable_allocated).pre fun u h => h.2 authority rfl).bind
        fun owned => ?_
      split
      · refine (awaitAuthority_holds htrash).bind fun b => ?_
        split
        · refine .pure fun w h found hfound => ?_
          cases hfound
          exact h.2 rfl
        · exact .pure fun _ _ => nofun
      · exact .pure fun _ _ => nofun
    · exact .pure fun _ _ => nofun
  · exact .pure fun _ _ => nofun

/-! ## Frontends and daemons -/

/-- A call that may be made anywhere. -/
theorem any_holds (op : Op) (hgives : ∀ t, gives role pid op t) :
    Ensures pact role pid P (ask op) fun _ _ => True :=
  (ask_holds .const op (fun t _ => hgives t) fun _ _ _ _ => trivial).pre fun _ _ => trivial

theorem writes_hold {changes : List Change} :
    Ensures pact role pid (fun _ => True) (each (write id) changes) fun _ _ => True :=
  .each fun change => (any_holds (.write id change) fun _ => trivial).bind fun _ => .pure fun _ h => h

theorem awaitSpawnLock_holds :
    Ensures pact role pid (fun _ => True) (awaitSpawnLock id attempts) fun _ _ => True := by
  induction attempts with
  | zero => exact .pure fun _ h => h
  | succ attempts ih =>
    refine (any_holds (.lockSpawn id) fun _ => trivial).bind fun answer => ?_
    split
    · exact .pure fun _ h => h
    · exact ih
    · exact .pure fun _ h => h

theorem frontend_holds {changes : List Change} :
    Ensures pact role pid (fun _ => True) (frontend identity attempts changes) fun _ _ => True := by
  refine (openWith_holds identity.not_trash).bind fun answer => ?_
  split
  · rename_i id
    have hlock : Ensures pact role pid (fun _ => True)
        (acquireSpawnLockBefore identity.stateName id attempts) fun _ _ => True := by
      refine (verifyIdentity_holds .const .const fun _ _ h _ => h).bind fun b => ?_
      split
      · exact awaitSpawnLock_holds.pre fun _ h => h.1
      · exact .pure fun _ h => h.1
    refine hlock.bind fun b => ?_
    split
    · refine writes_hold.bind fun _ => ?_
      exact (any_holds (.unlockSpawn id) fun _ => trivial).bind fun _ => .pure fun _ h => h
    · exact .pure fun _ h => h
  · exact .pure fun _ h => h

theorem daemon_holds {early refused served : List Change} :
    Ensures pact (.daemon identity attempts early refused served) pid (fun _ => True)
      (daemon identity attempts early refused served) fun _ _ => True := by
  refine (openWith_holds identity.not_trash).bind fun answer => ?_
  split
  · rename_i id
    refine writes_hold.bind fun _ => ?_
    refine (acquire_holds identity.not_trash).bind fun answer => ?_
    split
    · exact writes_hold.pre fun _ _ => trivial
    · rename_i authority
      have hstable : pact.Stable pid fun t => Serves t pid identity.stateName id authority :=
        stable_serves identity.not_trash
      refine ((ask_holds hstable (.hold id authority) (fun _ h => .daemon h) fun _ _ _ h => h).pre
        fun _ h => h authority rfl).bind fun _ => ?_
      have heach : Ensures pact (.daemon identity attempts early refused served) pid
          (fun t => Serves t pid identity.stateName id authority)
          (each (serve id authority) served)
          fun _ t => Serves t pid identity.stateName id authority := by
        refine .each fun change => ?_
        exact (ask_holds hstable (.serve id authority change) (fun _ h => .daemon h)
          fun _ _ _ h => h.put id change).bind fun _ => .pure fun _ h => h
      refine heach.bind fun _ => ?_
      exact (any_holds (.unlockAuthority authority) fun _ => trivial).bind fun _ =>
        .pure fun _ h => h
  · exact .pure fun _ h => h

/-! ## Sampling -/

theorem Directory.mem_childNames {directory : Directory} {child : Child} {time : Time}
    (h : directory.childTime child = some time) : child ∈ directory.childNames := by
  cases child with
  | authority =>
    obtain ⟨found, hfound, -⟩ := map_eq_some_iff.mp h
    simp [childNames, hfound]
  | other name =>
    have hmem : name ∈ directory.children := by
      rw [← AList.lookup_isSome, show directory.children.lookup name = some time from h]
      rfl
    simp only [childNames, mem_append, List.mem_map]
    exact .inr ⟨name, hmem, rfl⟩

section

variable (htrash : ¬ IsTrash name)
include htrash

/-- The sampling begins with the time of the directory itself. -/
theorem statDirectory_holds :
    Ensures pact role pid (fun _ => True) (ask (.statDirectory name)) fun answer t =>
      ∀ modified, answer = some modified → Sampling (fun _ => True) modified name pid t := by
  refine call_holds (fun _ => .all fun _ => stable_sampling htrash)
    (fun _ _ => trivial) (fun _ _ => nofun) fun t choice ht _ => ?_
  intro modified hmodified id (hname : t.names name = _) _ w hw hshown
  obtain ⟨found, hfound, heq⟩ := map_eq_some_iff.mp hmodified
  rw [directoryAt_eq_some.mpr hname] at hfound
  cases hfound
  rcases ht.tells id (ht.atHome hname htrash) w hw hshown with hle | ⟨child, time, htime, hle⟩
  · exact .inl (heq ▸ hle)
  · exact .inr ⟨child, time, trivial, htime, hle⟩

theorem listDirectory_holds {newest : Time} :
    Ensures pact role pid (Sampling (fun _ => True) newest name pid) (ask (.listDirectory name))
      fun answer t => ∀ children, answer = some children →
        Sampling (· ∈ children) newest name pid t := by
  refine call_holds (fun _ => .all fun _ => stable_sampling htrash)
    (fun _ _ => trivial) (fun _ _ => nofun) fun t choice ht hPt children hchildren => ?_
  intro id (hname : t.names name = _) hold w hw hshown
  obtain ⟨found, hfound, heq⟩ := map_eq_some_iff.mp hchildren
  rw [directoryAt_eq_some.mpr hname] at hfound
  cases hfound
  rcases hPt id hname hold w hw hshown with hle | ⟨child, time, -, htime, hle⟩
  · exact .inl hle
  · exact .inr ⟨child, time, heq ▸ mem_childNames htime, htime, hle⟩

/-- Each child read raises the newest time to its own. -/
theorem newestOf_holds {newest : Time} {children : List Child} :
    Ensures pact role pid (Sampling (· ∈ children) newest name pid)
      (newestOf name newest children) fun answer t => ∀ found, answer = some found →
        Sampling (fun _ => False) found name pid t := by
  induction children generalizing newest with
  | nil =>
    refine .pure fun t h found hfound => ?_
    cases hfound
    simpa [Sampling] using h
  | cons child rest ih =>
    have hstat : Ensures pact role pid (Sampling (· ∈ child :: rest) newest name pid)
        (ask (.statChild name child)) fun answer t => ∀ modified, answer = some modified →
          Sampling (· ∈ rest) (max newest modified) name pid t := by
      refine call_holds (fun _ => .all fun _ => stable_sampling htrash) (fun _ _ => trivial)
        (fun _ _ => nofun) fun t choice ht hPt modified hmodified => ?_
      intro id (hname : t.names name = _) hold w hw hshown
      rcases hPt id hname hold w hw hshown with hle | ⟨found, time, hmem, htime, hle⟩
      · exact .inl (hle.trans (Nat.le_max_left ..))
      · rcases mem_cons.mp hmem with heq | hrest
        · obtain ⟨here, hhere, hread⟩ := bind_eq_some_iff.mp hmodified
          rw [directoryAt_eq_some.mpr hname] at hhere
          cases hhere
          rw [heq, hread] at htime
          cases htime
          exact .inl (hle.trans (Nat.le_max_right ..))
        · exact .inr ⟨found, time, hrest, htime, hle⟩
    refine hstat.bind fun answer => ?_
    split
    · rename_i modified
      exact ih.pre fun t h => h modified rfl
    · exact .pure fun _ _ => nofun

theorem isIdle_holds :
    Ensures pact role pid (fun _ => True) (isIdle name idle now) fun b t =>
      b = true → Idle t pid name idle now := by
  refine (statDirectory_holds htrash).bind fun answer => ?_
  split
  · rename_i modified
    refine ((listDirectory_holds htrash).pre fun t h => h modified rfl).bind fun answer => ?_
    split
    · rename_i children
      refine ((newestOf_holds htrash).pre fun t h => h children rfl).bind fun answer => ?_
      split
      · rename_i newest
        refine .pure fun t h hb id hname hold w hw hshown => ?_
        obtain ⟨hnow, hidle⟩ := of_decide_eq_true hb
        have hsum : idle + newest ≤ now := Nat.add_le_of_le_sub hnow hidle
        rcases h newest rfl id hname hold w hw hshown with hle | ⟨_, _, hnone, -⟩
        · calc w.time + idle ≤ newest + idle := Nat.add_le_add_right hle idle
            _ = idle + newest := Nat.add_comm ..
            _ ≤ now := hsum
        · exact hnone.elim
      · exact .pure fun _ _ => nofun
    · exact .pure fun _ _ => nofun
  · exact .pure fun _ _ => nofun

end

/-! ## The collection -/

/-- The sampling is not affected by what the collector itself does to lock the directory. -/
theorem Idle.makeAuthority (h : Idle root pid name idle now) :
    Idle (root.makeAuthority id) pid name idle now := by
  have hwrites (other : Nat) : ((root.makeAuthority id).directories other).writes =
      (root.directories other).writes := by
    by_cases heq : other = id
    · rw [heq, show (root.makeAuthority id).directories id = _ from update_self ..]
    · rw [show (root.makeAuthority id).directories other = _ from update_of_ne heq ..]
  intro other hname
  rw [hwrites]
  exact h other hname

theorem retire_holds {own identity : CoreIdentity} (hne : identity ≠ own) :
    Ensures pact (.collector own idle now entries) pid
      (fun t => Idle t pid identity.stateName idle now) (retire identity identity.stateName)
      fun answer _ => ∀ trash, answer = some trash → IsTrash trash := by
  have htrash := identity.not_trash
  have hidle : pact.Stable pid fun t => Idle t pid identity.stateName idle now := stable_idle htrash
  refine (openWith_existing_holds hidle).bind fun answer => ?_
  split
  · rename_i id
    refine (trySpawnLock_holds hidle fun _ h => h).bind fun b => ?_
    split
    · refine ((tryAcquire_holds htrash hidle (fun _ _ h _ => h.makeAuthority)
        fun _ _ h => h).pre fun u h => ⟨h.1, h.2 rfl⟩).bind fun answer => ?_
      split
      · exact (any_holds (.unlockSpawn id) fun _ => trivial).bind fun _ => .pure fun _ _ => nofun
      · rename_i authority
        have howned : pact.Stable pid fun t => Idle t pid identity.stateName idle now ∧
            Owns t pid identity.stateName id authority := hidle.and (stable_owns htrash)
        refine ((ask_holds howned .newUuid (fun _ _ => trivial) fun _ _ _ h => h).pre
          fun v h => ⟨h.1, h.2 authority rfl⟩).bind fun uuid => ?_
        have hrename : Ensures pact (.collector own idle now entries) pid
            (fun t => Idle t pid identity.stateName idle now ∧
              Owns t pid identity.stateName id authority)
            (ask (.rename identity.stateName (trashPrefix ++ uuid))) fun _ _ => True := by
          refine .ask (fun _ => .const) (fun x h => ?_) fun _ _ _ _ => trivial
          refine ⟨⟨uuid, rfl⟩, .collector (fun heq => ?_) htrash h.2 h.1⟩
          exact hne (CoreIdentity.stateName_injective heq)
        refine hrename.bind fun moved => ?_
        refine (any_holds (.unlockAuthority authority) fun _ => trivial).bind fun _ => ?_
        refine (any_holds (.unlockSpawn id) fun _ => trivial).bind fun _ => ?_
        refine .pure fun _ _ trash heq => ?_
        split at heq
        · cases heq
          exact ⟨uuid, rfl⟩
        · cases heq
    · exact .pure fun _ _ => nofun
  · exact .pure fun _ _ => nofun

/-- Only directories away from their names are taken apart. -/
theorem removeChildTree_holds (htrash : IsTrash name) :
    Ensures pact role pid P (removeChildTree name entries) fun _ _ => True := by
  have hremove {P : Root → Prop} :
      Ensures pact role pid P (ask (.removeDirectory name)) fun _ _ => True :=
    any_holds (.removeDirectory name) fun _ => htrash
  have hopen : Ensures pact role pid P (ask (.openChild name)) fun answer t => ∀ id,
      answer = .found id → id < t.nextDirectory ∧ ¬ t.AtHome id := by
    refine call_holds (fun _ => .all fun _ => stable_away) (fun _ _ => trivial)
      (fun _ _ => nofun) fun t choice ht _ id hfound => ?_
    unfold perform at hfound
    dsimp only at hfound
    split at hfound
    · rename_i found hname
      cases hfound
      have hlt := ht.allocated name id hname
      refine ⟨hlt, fun (hhome : t.AtHome id) => ?_⟩
      have hborn := ht.born id hlt
      rw [ht.unique _ _ id hhome hname] at hborn
      exact hborn htrash
    · cases hfound
    · cases hfound
  refine hopen.bind fun answer => ?_
  split
  · rename_i id
    have heach : Ensures pact role pid (fun t => id < t.nextDirectory ∧ ¬ t.AtHome id)
        (each (fun _ : Nat => do
          let _ ← ask (.strip id)) (range entries))
        fun _ t => id < t.nextDirectory ∧ ¬ t.AtHome id := by
      refine .each fun _ => ?_
      exact (ask_holds stable_away (.strip id) (fun _ h => h.2) fun _ choice _ haway =>
        away_strip haway choice.child).bind fun _ => .pure fun _ h => h
    refine (heach.pre fun t h => h id rfl).bind fun _ => ?_
    exact hremove.bind fun _ => .pure fun _ h => h
  · exact hremove.bind fun _ => .pure fun _ h => h
  · exact .pure fun _ _ => trivial

theorem collectName_holds {own : CoreIdentity} :
    Ensures pact (.collector own idle now entries) pid (fun _ => True)
      (collectName own idle now entries name) fun _ _ => True := by
  unfold collectName
  split
  · rename_i htrash
    exact removeChildTree_holds htrash
  · rename_i htrash
    split
    · rename_i identity hidentity
      obtain ⟨hname, hne⟩ := stateName_of_foreignIdentity hidentity
      refine (isIdle_holds htrash).bind fun b => ?_
      split
      · rw [hname]
        refine ((retire_holds hne).pre fun t h => h rfl).bind fun answer => ?_
        split
        · rename_i trash
          exact .fact (fun _ h => h trash rfl) removeChildTree_holds
        · exact .pure fun _ _ => trivial
      · exact .pure fun _ _ => trivial
    · exact .pure fun _ h => h

theorem collectNames_holds {own : CoreIdentity} {names : List Name} :
    Ensures pact (.collector own idle now entries) pid (fun _ => True)
      (collectNames own idle now entries names) fun _ _ => True := by
  induction names with
  | nil => exact .pure fun _ h => h
  | cons name rest ih => exact collectName_holds.bind fun _ => ih.bind fun _ => .pure fun _ h => h

/-- Every program keeps to the pact. -/
theorem program_holds (role : Role) (pid : Nat) :
    Ensures pact role pid (fun _ => True) role.program fun _ _ => True := by
  cases role with
  | collector own idle now entries =>
    have hcollect : Ensures pact (.collector own idle now entries) pid (fun _ => True)
        (collectStaleDaemonStates own idle now entries) fun _ _ => True := by
      refine (any_holds .listRoot fun _ => trivial).bind fun answer => ?_
      split
      · exact collectNames_holds.bind fun _ => .pure fun _ h => h
      · exact .pure fun _ h => h
    exact hcollect.bind fun _ => .pure fun _ h => h
  | frontend identity attempts changes => exact frontend_holds
  | daemon identity attempts early refused served => exact daemon_holds
  | clock ticks =>
    refine .each fun _ => ?_
    exact (any_holds .tick fun _ => trivial).bind fun _ => .pure fun _ h => h

end Programs

end Unica.Collection
