import Unica.Collection.Safety

/-!
# Runs of a state root

What holds where a collector moves a directory, over every run of collectors, frontends and
daemons of any builds, each of which may be stopped anywhere.
-/

namespace Unica.Collection

open Lib Root List

/-- A daemon's call under its authority over the directory. -/
def Op.UsesAuthority (id : Nat) : Op → Prop
  | .hold directory _ => directory = id
  | .serve directory _ _ => directory = id
  | _ => False

theorem inv_initial (others : Name → Bool) :
    Inv { names := fun name => if others name then some .other else none } := by
  constructor <;> simp [Directory.Tells]

theorem within_runRoot (others : Name → Bool) (events : List (Event Choice Role)) :
    (runRoot others events).Within pact :=
  (Pool.Within.empty (inv_initial others)).run program_holds events

theorem runRoot_append (others : Name → Bool) (events more : List (Event Choice Role)) :
    runRoot others (events ++ more) = (runRoot others events).run stateRoot Role.program more := by
  simp [runRoot, Pool.run]

/-- A daemon uses its authority over directories that stand under their names. -/
theorem atHome_of_usesAuthority {role : Role} {pid id : Nat} {op : Op} {root : Root}
    (hinv : Inv root) (hgives : gives role pid op root) (huses : op.UsesAuthority id) : root.AtHome id := by
  cases op with
  | hold | serve =>
    cases huses
    cases hgives with
    | daemon hserves => exact hinv.atHome hserves.named (CoreIdentity.not_trash _)
  | _ => exact huses.elim

/-- A directory that was moved never gets its name back, so that no daemon has it later. -/
theorem unused_once_away {others : Name → Bool} {events : List (Event Choice Role)} {id : Nat}
    (haway : id < (runRoot others events).shared.nextDirectory ∧
      ¬ (runRoot others events).shared.AtHome id)
    (more : List (Event Choice Role)) {pid : Nat} {role : Role} {op : Op} {next : Answer op → Program Unit}
    (hmem : (runRoot others (events ++ more)).processes[pid]? = some ⟨role, .call op next⟩) :
    ¬ op.UsesAuthority id := by
  intro huses
  have hlater := within_runRoot others (events ++ more)
  have hhome := atHome_of_usesAuthority hlater.inv (hlater.gives hmem) huses
  have hstays := (within_runRoot others events).stays (fun _ => stable_away) program_holds haway more
  rw [← runRoot_append] at hstays
  exact hstays.2 hhome

/-- What the move of a directory leaves. -/
theorem act_rename {pid id : Nat} {source target : Name} {choice : Choice} {root : Root}
    (hsource : root.names source = some (.directory id))
    (hmoved : (act pid (.rename source target) choice root).1 = true) :
    (act pid (.rename source target) choice root).2 =
      (root.setName source none).setName target (some (.directory id)) := by
  unfold act at hmoved ⊢
  split at hmoved
  · cases hmoved
  · rename_i hperformed
    rw [if_neg hperformed]
    simp only [perform] at hmoved ⊢
    split at hmoved
    · rename_i entry hentry hfree
      rw [hsource] at hentry
      cases hentry
      rfl
    · cases hmoved

/-- Where a collector moves a directory to trash: it is not of the collector's build; the
directory moved is the one whose spawn and authority locks the collector holds; no daemon uses an
authority over it from then on; and unless it was written to after the sampling began, nothing
that shows in its own time or that of a direct child was written less than the idle period before
the collection's `now`. -/
theorem collector_moves_unused_state (others : Name → Bool) (events : List (Event Choice Role))
    {pid : Nat} {own : CoreIdentity} {idle now : Time} {entries : Nat} {source target : Name}
    {next : Answer (.rename source target) → Program Unit}
    (hmem : (runRoot others events).processes[pid]? =
      some ⟨.collector own idle now entries, .call (.rename source target) next⟩)
    (choice : Choice)
    (hmoved : (act pid (.rename source target) choice (runRoot others events).shared).1 = true) :
    source ≠ own.stateName ∧ ∃ id authority,
      Owns (runRoot others events).shared pid source id authority ∧
      (runRoot others (events ++ [.step pid choice])).shared.names target = some (.directory id) ∧
      (∀ (more : List (Event Choice Role)) (pid' : Nat) (role : Role) (op : Op)
        (next' : Answer op → Program Unit),
        (runRoot others (events ++ [.step pid choice] ++ more)).processes[pid']? =
          some ⟨role, .call op next'⟩ → ¬ op.UsesAuthority id) ∧
      Idle (runRoot others events).shared pid source idle now := by
  have hwithin := within_runRoot others events
  obtain ⟨htrash, hmove⟩ := hwithin.gives hmem
  cases hmove with
  | @collector own idle now entries id authority hother hstate howns hidle =>
    have hafter := act_rename howns.named hmoved
    have hshared : (runRoot others (events ++ [.step pid choice])).shared =
        (act pid (.rename source target) choice (runRoot others events).shared).2 := by
      rw [runRoot_append]
      simp only [Pool.run, foldl_cons, foldl_nil, Pool.next, hmem]
      rfl
    rw [hafter] at hshared
    refine ⟨hother, id, authority, howns, ?_, ?_, hidle⟩
    · rw [hshared, setName_self]
    · intro more pid' role op next' hmem'
      refine unused_once_away ?_ more hmem'
      rw [hshared]
      refine ⟨hwithin.inv.allocated source id howns.named, fun hhome => ?_⟩
      rw [Root.AtHome, setName_of_ne, show (((runRoot others events).shared.setName source
        none).setName target (some (.directory id))).directories =
          (runRoot others events).shared.directories from rfl,
        hwithin.inv.named source id howns.named hstate, setName_self] at hhome
      · cases hhome
      · intro heq
        have hborn := hwithin.inv.born id (hwithin.inv.allocated source id howns.named)
        exact hborn (heq ▸ htrash)

/-! ## What the sampling does not see -/

def identityOf (c : Char) (h : c ∈ "0123456789abcdef".toList) : CoreIdentity where
  text := replicate 64 c
  length := length_replicate
  lowerHex := by
    intro d hd
    rw [eq_of_mem_replicate hd]
    exact h

def oldBuild : CoreIdentity := identityOf 'a' (by decide)

def newBuild : CoreIdentity := identityOf 'b' (by decide)

/-- The idle period, `now` and the names of a move that a collector is about to make. -/
def nextMove (pool : Pool Op Answer Role Root) (pid : Nat) : Option (Time × Time × Name × Name) :=
  match pool.processes[pid]? with
  | some ⟨.collector _ idle now _, .call (.rename source target) _⟩ =>
    some (idle, now, source, target)
  | _ => none

theorem exists_of_nextMove {pool : Pool Op Answer Role Root} {pid : Nat} {idle now : Time}
    {source target : Name} (h : nextMove pool pid = some (idle, now, source, target)) :
    ∃ own entries next, pool.processes[pid]? =
      some ⟨.collector own idle now entries, .call (.rename source target) next⟩ := by
  unfold nextMove at h
  split at h
  · rename_i own found now' entries source' target' next hmem
    cases h
    exact ⟨own, entries, next, hmem⟩
  · cases h

def steps (pid count : Nat) : List (Event Choice Role) := replicate count (.step pid {})

/-- A daemon publishes its endpoint at time 0, makes the `late` writes at time 10 and leaves. -/
def servedState (late : List Change) : List (Event Choice Role) :=
  [.start (.daemon oldBuild 1 [] [] (.publish "endpoint" :: late))] ++ steps 0 23 ++
    [.start (.clock 10)] ++ steps 1 10 ++ steps 0 (late.length + 1)

/-- A collector of another build lists the state at time 10, with `now` 12 and an idle period of
5, and goes on for some calls. -/
def collects (count : Nat) : List (Event Choice Role) :=
  [.start (.collector newBuild 5 12 1), .step 2 { listing := [oldBuild.stateName] }] ++
    steps 2 count

/-- The daemon's last write, at time 10, is deeper than a direct child. -/
def deepWrite : List (Event Choice Role) := servedState [.deep] ++ collects 22

/-- A daemon starts, writes at time 10 and leaves after the state was sampled. -/
def lateWrite : List (Event Choice Role) :=
  servedState [] ++ collects 4 ++
    [.start (.daemon oldBuild 1 [] [] [.publish "endpoint"])] ++ steps 3 30 ++ steps 2 18

/-- After `events`, process 2 moves a state to trash that was written to less than the idle period
before its `now`. -/
abbrev MovesRecent (events : List (Event Choice Role)) : Prop :=
  nextMove (runRoot (fun _ => false) events) 2 = some (5, 12, oldBuild.stateName, trashPrefix) ∧
    (act 2 (.rename oldBuild.stateName trashPrefix) {}
      (runRoot (fun _ => false) events).shared).1 = true ∧
    (runRoot (fun _ => false) events).shared.names oldBuild.stateName = some (.directory 0) ∧
    ∃ w ∈ ((runRoot (fun _ => false) events).shared.directories 0).writes,
      w.time ≤ 12 ∧ 12 < w.time + 5

/-- A state that a daemon wrote to less than the idle period before `now` is moved to trash, where
the write shows in no time the sampling reads, or was made after them. -/
theorem recent_state_moved : MovesRecent deepWrite ∧ MovesRecent lateWrite := by
  decide +kernel

/-- A state last written at time 0 is moved by the collector that holds its locks. -/
theorem idle_state_moved : ∃ id authority,
    Owns (runRoot (fun _ => false) (servedState [] ++ collects 22)).shared 2 oldBuild.stateName id
      authority ∧
    Idle (runRoot (fun _ => false) (servedState [] ++ collects 22)).shared 2 oldBuild.stateName
      5 12 := by
  have hmove : nextMove (runRoot (fun _ => false) (servedState [] ++ collects 22)) 2 =
      some (5, 12, oldBuild.stateName, trashPrefix) := by
    decide +kernel
  obtain ⟨own, entries, next, hmem⟩ := exists_of_nextMove hmove
  obtain ⟨-, id, authority, howns, -, -, hidle⟩ := collector_moves_unused_state (fun _ => false)
    (servedState [] ++ collects 22) hmem {} (by decide +kernel)
  exact ⟨id, authority, howns, hidle⟩

end Unica.Collection
