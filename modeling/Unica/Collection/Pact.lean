import Unica.Collection.Relies

/-!
# What a process of a state root gives

Where a process makes a call, it gives a fact the others can rely on: a directory is moved by a
collector that holds both of its locks and has proved the name after it took the first, and served
by a daemon that holds its authority; only trash is taken apart. Then come the facts of a process
that last while the others run.
-/

namespace Unica.Collection

open Lib Root Function List

/-- Nothing that shows in the times of the directory under the name is younger than `idle`,
unless the directory was written to after the process began to sample it. -/
def Idle (root : Root) (pid : Nat) (name : Name) (idle now : Time) : Prop :=
  ∀ id, root.names name = some (.directory id) →
    (∀ w ∈ (root.directories id).writes, w.number < root.sampledAt pid) →
      ∀ w ∈ (root.directories id).writes, w.shown = true → w.time + idle ≤ now

/-- The process holds the authority over the directory under the name. -/
structure Serves (root : Root) (pid : Nat) (name : Name) (id authority : Nat) : Prop where
  named : root.names name = some (.directory id)
  child : ∃ time, (root.directories id).authority = some (authority, time)
  lock : root.authorityLock authority = some pid

/-- The process holds both locks of the directory under the name. -/
structure Owns (root : Root) (pid : Nat) (name : Name) (id authority : Nat) : Prop
    extends Serves root pid name id authority where
  spawn : root.spawnLock id = some pid

inductive MayMove (root : Root) (pid : Nat) (source : Name) : Role → Prop where
  | collector {own : CoreIdentity} {idle now : Time} {entries id authority : Nat}
      (other : source ≠ own.stateName) (state : ¬ IsTrash source)
      (owns : Owns root pid source id authority) (quiet : Idle root pid source idle now) :
      MayMove root pid source (.collector own idle now entries)

inductive MayServe (root : Root) (pid id authority : Nat) : Role → Prop where
  | daemon {identity : CoreIdentity} {attempts : Nat} {early refused served : List Change}
      (serves : Serves root pid identity.stateName id authority) :
      MayServe root pid id authority (.daemon identity attempts early refused served)

def gives (role : Role) (pid : Nat) : Op → Root → Prop
  | .makeChild name, _ => ¬ IsTrash name
  | .removeDirectory name, _ => IsTrash name
  | .strip id, root => ¬ root.AtHome id
  | .rename source target, root => IsTrash target ∧ MayMove root pid source role
  | .hold id authority, root => MayServe root pid id authority role
  | .serve id authority _, root => MayServe root pid id authority role
  | _, _ => True

theorem lock_update {locks : Nat → Option Nat} {id pid other : Nat} {holder : Option Nat}
    (hne : other ≠ pid) (hbefore : locks id = none ∨ locks id = some pid)
    (hafter : holder = none ∨ holder = some pid) (at' : Nat) :
    update locks id holder at' = some other ↔ locks at' = some other := by
  by_cases heq : at' = id
  · rw [heq]
    rcases hbefore with hb | hb <;> rcases hafter with ha | ha <;> simp [hb, ha, hne.symm]
  · rw [update_of_ne heq]

theorem keeps (role : Role) (pid : Nat) (op : Op) (choice : Choice) (s : Root) (hinv : Inv s)
    (hgives : gives role pid op s) :
    Inv (act pid op choice s).2 ∧ ∀ other, other ≠ pid → Rely other s (act pid op choice s).2 := by
  have hsame : Inv s ∧ ∀ other, other ≠ pid → Rely other s s := ⟨hinv, fun _ _ => .refl⟩
  unfold act
  split
  · exact hsame
  cases op with
  | openChild | verifyOwnerOnly | openPath | openAuthority | listRoot | listDirectory | statChild
  | newUuid | hold => exact hsame
  | makeChild name =>
    simp only [perform]
    split
    · exact hsame
    · rename_i hname
      exact ⟨hinv.makeChild hgives, fun _ _ => .makeChild hname⟩
  | makeAuthority id =>
    simp only [perform]
    split
    · exact hsame
    · rename_i hnone
      exact ⟨hinv.makeAuthority id, fun _ _ => .makeAuthority hnone⟩
  | lockSpawn id =>
    simp only [perform]
    split
    · exact hsame
    · rename_i hfree
      exact ⟨hinv.of_same le_rfl hinv.sampled, fun other hne =>
        .of_same rfl (lock_update hne (.inl hfree) (.inr rfl)) fun _ => Iff.rfl⟩
  | unlockSpawn id =>
    simp only [perform]
    split
    · rename_i hheld
      exact ⟨hinv.of_same le_rfl hinv.sampled, fun other hne =>
        .of_same rfl (lock_update hne (.inr hheld) (.inl rfl)) fun _ => Iff.rfl⟩
    · exact hsame
  | lockAuthority authority =>
    simp only [perform]
    split
    · exact hsame
    · rename_i hfree
      exact ⟨hinv.of_same le_rfl hinv.sampled, fun other hne =>
        .of_same rfl (fun _ => Iff.rfl) (lock_update hne (.inl hfree) (.inr rfl))⟩
  | unlockAuthority authority =>
    simp only [perform]
    split
    · rename_i hheld
      exact ⟨hinv.of_same le_rfl hinv.sampled, fun other hne =>
        .of_same rfl (fun _ => Iff.rfl) (lock_update hne (.inr hheld) (.inl rfl))⟩
    · exact hsame
  | statDirectory name =>
    refine ⟨hinv.of_same le_rfl fun other => ?_, fun other hne => ?_⟩
    · show update s.sampledAt pid s.writeCount other ≤ s.writeCount
      by_cases heq : other = pid
      · rw [heq, update_self]
      · rw [update_of_ne heq]
        exact hinv.sampled other
    · exact .of_same (update_of_ne hne ..) (fun _ => Iff.rfl) fun _ => Iff.rfl
  | rename source target =>
    simp only [perform]
    split
    · rename_i entry hsource hfree
      obtain ⟨htrash, hmove⟩ := hgives
      refine ⟨hinv.rename hsource htrash, fun other hne => ?_⟩
      cases hmove with
      | collector _ _ howns _ =>
        obtain ⟨time, hchild⟩ := howns.child
        rw [howns.named] at hsource
        cases hsource
        exact .rename hinv hne howns.named htrash howns.spawn hchild howns.lock
    · exact hsame
  | strip id => exact ⟨hinv.strip hgives choice.child, fun _ _ => .strip hgives choice.child⟩
  | removeDirectory name =>
    simp only [perform]
    split
    · split
      · exact ⟨hinv.forget name, fun _ _ => .forget hinv hgives⟩
      · exact hsame
    · exact hsame
  | write id change | serve id authority change =>
    exact ⟨hinv.put id change, fun _ _ => .put id change⟩
  | tick =>
    exact ⟨hinv.of_same (Nat.le_succ _) hinv.sampled, fun _ _ =>
      .of_same rfl (fun _ => Iff.rfl) fun _ => Iff.rfl⟩

theorem leaves (pid : Nat) (s : Root) (hinv : Inv s) :
    Inv (s.leave pid) ∧ ∀ other, other ≠ pid → Rely other s (s.leave pid) := by
  have hlocks (locks : Nat → Option Nat) (other : Nat) (hne : other ≠ pid) (id : Nat) :
      (if locks id = some pid then none else locks id) = some other ↔ locks id = some other := by
    split
    · rename_i hheld
      simp [hheld, hne.symm]
    · exact Iff.rfl
  refine ⟨hinv.of_same le_rfl hinv.sampled, fun other hne => ?_⟩
  exact .of_same rfl (hlocks s.spawnLock other hne)
    (hlocks s.authorityLock other hne)

def pact : Pact stateRoot Role where
  inv := Inv
  rely := Rely
  gives := gives
  refl _ _ := .refl
  trans _ _ _ _ := .trans
  keeps := keeps
  leaves := leaves

/-! ## Facts that last -/

section Stable

variable {pid : Nat} {s t : Root}
variable {id authority : Nat} {name : Name}

/-- A directory whose lock the process holds stays under its name. -/
theorem Rely.named (h : Rely pid s t) (hs : Inv s)
    (htrash : ¬ IsTrash name) (hname : s.names name = some (.directory id))
    (hguards : s.Guards pid id) : t.names name = some (.directory id) := by
  have hhome := hs.atHome hname htrash
  have hlt := hs.lt_of_atHome hhome
  have hafter := h.guarded id hlt hhome hguards
  rw [AtHome, h.born id hlt, hs.named name id hname htrash] at hafter
  exact hafter

theorem stable_spawn : pact.Stable pid fun s => s.spawnLock id = some pid :=
  fun _ _ _ _ h => (h.spawn id).mpr

theorem stable_lock : pact.Stable pid fun s => s.authorityLock authority = some pid :=
  fun _ _ _ _ h => (h.authority authority).mpr

theorem stable_allocated : pact.Stable pid fun s => authority < s.nextAuthority :=
  fun _ _ _ _ h hlt => hlt.trans_le h.nextAuthority

/-- What is seen by a process that holds the spawn lock and has proved the name. -/
structure Locks (root : Root) (pid : Nat) (name : Name) (id : Nat) : Prop where
  named : root.names name = some (.directory id)
  spawn : root.spawnLock id = some pid

theorem stable_locks (htrash : ¬ IsTrash name) :
    pact.Stable pid fun s => Locks s pid name id := fun _ _ hs _ h hlocks =>
  ⟨h.named hs htrash hlocks.named (.inl hlocks.spawn), (h.spawn id).mpr hlocks.spawn⟩

theorem stable_locks_child (htrash : ¬ IsTrash name) :
    pact.Stable pid fun s => Locks s pid name id ∧
      ∃ time, (s.directories id).authority = some (authority, time) := by
  rintro s t hs ht h ⟨hlocks, time, hchild⟩
  have hafter := stable_locks htrash s t hs ht h hlocks
  have hlt := hs.allocated name id hlocks.named
  exact ⟨hafter, time, h.child id hlt (ht.atHome hafter.named htrash) _ hchild⟩

theorem stable_serves (htrash : ¬ IsTrash name) :
    pact.Stable pid fun s => Serves s pid name id authority := by
  rintro s t hs ht h ⟨hname, ⟨time, hchild⟩, hlock⟩
  have hafter := h.named hs htrash hname (.inr ⟨authority, time, hchild, hlock⟩)
  have hlt := hs.allocated name id hname
  exact ⟨hafter, ⟨time, h.child id hlt (ht.atHome hafter htrash) _ hchild⟩,
    (h.authority authority).mpr hlock⟩

theorem stable_owns (htrash : ¬ IsTrash name) :
    pact.Stable pid fun s => Owns s pid name id authority := fun s t hs ht h howns =>
  ⟨stable_serves htrash s t hs ht h howns.toServes, (h.spawn id).mpr howns.spawn⟩

/-- A directory away from its name stays away. -/
theorem stable_away :
    pact.Stable pid fun s => id < s.nextDirectory ∧ ¬ s.AtHome id := fun _ _ _ _ h haway =>
  ⟨haway.1.trans_le h.nextDirectory, fun hhome => haway.2 (h.home id haway.1 hhome)⟩

/-- A directory that was not written to since the process began to sample was under its name
before, with the writes it has now, or has none. -/
theorem Rely.unwritten (h : Rely pid s t) (hs : Inv s) (ht : Inv t)
    (htrash : ¬ IsTrash name) (hname : t.names name = some (.directory id))
    (hold : ∀ w ∈ (t.directories id).writes, w.number < t.sampledAt pid) :
    (t.directories id).writes = [] ∨
      (id < s.nextDirectory ∧ t.AtHome id ∧ s.names name = some (.directory id) ∧
        (t.directories id).writes = (s.directories id).writes) := by
  have hhome := ht.atHome hname htrash
  have hsince := h.sampled.trans_le (hs.sampled pid)
  by_cases hlt : id < s.nextDirectory
  · right
    have hbefore := h.home id hlt hhome
    have hborn := h.born id hlt
    rw [ht.named name id hname htrash] at hborn
    obtain ⟨more, hmore, hnumbers⟩ := h.writes id hlt hhome
    have hnone : more = [] := by
      refine eq_nil_iff_forall_not_mem.mpr fun w hw => ?_
      have hnew := hnumbers w hw
      have hearly := hold w (hmore ▸ mem_append_right _ hw)
      omega
    rw [hnone, append_nil] at hmore
    rw [AtHome, ← hborn] at hbefore
    exact ⟨hlt, hhome, hbefore, hmore⟩
  · left
    refine eq_nil_iff_forall_not_mem.mpr fun w hw => ?_
    have hnew := h.fresh id (Nat.le_of_not_lt hlt) (ht.allocated name id hname) hhome w hw
    have hearly := hold w hw
    omega

theorem stable_idle {idle now : Time} (htrash : ¬ IsTrash name) :
    pact.Stable pid fun s => Idle s pid name idle now := by
  intro s t hs ht h hidle id hname hold w hw hshown
  rcases h.unwritten hs ht htrash hname hold with hnone | ⟨-, -, hbefore, hwrites⟩
  · rw [hnone] at hw
    cases hw
  · rw [hwrites] at hold hw
    rw [h.sampled] at hold
    exact hidle id hbefore hold w hw hshown

/-- The sampling has yet to read the times of some children; what it has not seen in them, the
newest time tells. -/
def Sampling (pending : Child → Prop) (newest : Time) (name : Name) (pid : Nat) (root : Root) :
    Prop :=
  ∀ id, root.names name = some (.directory id) →
    (∀ w ∈ (root.directories id).writes, w.number < root.sampledAt pid) →
      ∀ w ∈ (root.directories id).writes, w.shown = true → w.time ≤ newest ∨
        ∃ child time, pending child ∧ (root.directories id).childTime child = some time ∧
          w.time ≤ time

theorem stable_sampling {pending : Child → Prop} {newest : Time}
    (htrash : ¬ IsTrash name) : pact.Stable pid (Sampling pending newest name pid) := by
  intro s t hs ht h hsampling id hname hold w hw hshown
  rcases h.unwritten hs ht htrash hname hold with hnone | ⟨hlt, hhome, hbefore, hwrites⟩
  · rw [hnone] at hw
    cases hw
  · rw [hwrites, h.sampled] at hold
    rw [hwrites] at hw
    rcases hsampling id hbefore hold w hw hshown with hle | ⟨child, time, hpending, htime, hle⟩
    · exact .inl hle
    · exact .inr ⟨child, time, hpending, h.times id hlt hhome hwrites child time htime, hle⟩

end Stable

end Unica.Collection
