import Unica.Daemon.Listener
import Unica.Lib.Machine

/-!
# Runs of the listener

The count of slots is the number of handlers that hold one, and the lease set is the set of
leases that handlers hold. Only the loop adds a slot, and a handler installs its lease while
it has one: when the loop has read the count as zero no lease can come before its next accept.
-/

namespace Unica.Daemon

open Lib Table Handler LoopPoint Option Finset Bool

variable {ι α : Type}
variable {connection : Nat} {handler' : Handler α} {lease : α} {point : LoopPoint}

/-! ## What one step can do -/

namespace Handler

/-- A handler that neither holds a slot nor a lease has ended. -/
theorem isEnded_of_idle {handler : Handler α} (hslot : handler.holdsSlot = false) (hlease : handler.lease = none) :
    handler.isEnded = true := by
  cases handler with
  | ended => rfl
  | spawning | handshaking | refusing | acquiring | owning => cases hslot
  | greeting | session | reading | closing => cases hlease

end Handler

namespace LoopPoint

/-- The loop has read the count of slots as zero since its last accept. -/
def sawNoHandshakes : LoopPoint → Bool
  | readingOwners true | deciding true _ | left .idle | shutDown .idle => true
  | _ => false

/-- It has then found the lease set empty. -/
def sawNoOwners : LoopPoint → Bool
  | deciding true true | left .idle | shutDown .idle => true
  | _ => false

theorem sawNoHandshakes_of_sawNoOwners (h : point.sawNoOwners = true) : point.sawNoHandshakes = true := by
  unfold sawNoOwners at h
  split at h <;> first | rfl | cases h

def isSpawning : LoopPoint → Bool
  | spawning _ => true
  | _ => false

def hasLeft : LoopPoint → Bool
  | left _ | shutDown _ => true
  | _ => false

end LoopPoint

namespace Listener

/-- A step of the loop that touches nothing the handlers share. -/
inductive LoopStep (s : Listener α) : LoopPoint → Prop where
  | plain {point : LoopPoint} (hfrom : s.point.isSpawning = false) (hleft : s.point.hasLeft = false)
      (hto : point.isSpawning = false) (hsaw : point.sawNoHandshakes = false)
      (hsaw' : point.sawNoOwners = false) : LoopStep s point
  | readHandshakes (hfrom : s.point = .readingHandshakes) : LoopStep s (.readingOwners (s.admitted == 0))
  | readOwners {handshakesEmpty ownersEmpty : Bool} (hfrom : s.point = .readingOwners handshakesEmpty)
      (hempty : ownersEmpty = true → s.leases = ∅) : LoopStep s (.deciding handshakesEmpty ownersEmpty)
  | leave (hfrom : s.point = .deciding true true) : LoopStep s (.left .idle)
  | shutDown {reason : LeaveReason} (hfrom : s.point = .left reason) : LoopStep s (.shutDown reason)

/-- What one step can do, with what it found. -/
inductive Steps [DecidableEq α] (s : Listener α) : Listener α → Prop where
  | loop {point : LoopPoint} {idleSince : Nat} {shuttingDown : Bool} (hstep : LoopStep s point) :
      Steps s { s with point := point, idleSince := idleSince, shuttingDown := shuttingDown }
  | turnAway {point : LoopPoint} (hfrom : s.point = .accepting) (hto : point = .readingHandshakes ∨ point = .left .restart) :
      Steps s { s with
        handlers := set s.handlers s.next (some (.ended .turnedAway))
        point := point
        next := s.next + 1 }
  | accepts (hfrom : s.point = .accepting) (hroom : s.admitted + 1 < usizeLimit) : Steps s { s with
        handlers := set s.handlers s.next (some .spawning)
        point := .spawning s.next
        admitted := s.admitted + 1
        next := s.next + 1 }
  | spawned {connection : Nat} (hfrom : s.point = .spawning connection) : Steps s { s with
        handlers := set s.handlers connection (some .handshaking)
        point := .readingHandshakes }
  | spawnFailed {connection : Nat} (hfrom : s.point = .spawning connection) : Steps s { s with
        handlers := set s.handlers connection (some (.ended .turnedAway))
        point := .readingHandshakes
        admitted := fetchSub s.admitted }
  | handler {connection : Nat} {handler handler' : Handler α} {served : List Nat}
      (hhandler : s.handlers.lookup connection = some handler) (hspawning : handler ≠ .spawning)
      (hspawning' : handler' ≠ .spawning) (hended : handler.isEnded = false)
      (hslot : handler'.holdsSlot = handler.holdsSlot) (hlease : handler'.lease = handler.lease) :
      Steps s { s with handlers := set s.handlers connection (some handler'), served := served }
  | dropSlot {connection : Nat} {handler handler' : Handler α}
      (hhandler : s.handlers.lookup connection = some handler) (hspawning : handler ≠ .spawning)
      (hslot : handler.holdsSlot = true) (hslot' : handler'.holdsSlot = false)
      (hlease : handler'.lease = handler.lease) :
      Steps s { s with
        handlers := set s.handlers connection (some handler')
        admitted := fetchSub s.admitted }
  | install {connection : Nat} {lease : α} (hhandler : s.handlers.lookup connection = some (.acquiring lease))
      (hnew : lease ∉ s.leases) :
      Steps s { s with
        handlers := set s.handlers connection (some (.owning lease))
        leases := insert lease s.leases }
  | dropLease {connection : Nat} {lease : α} (hhandler : s.handlers.lookup connection = some (.closing lease)) :
      Steps s { s with
        handlers := set s.handlers connection (some (.ended .leaseGivenUp))
        leases := s.leases.erase lease }

section Inversion

variable [DecidableEq ι] [DecidableEq α] {record : V5EndpointRecord ι} {idleGrace : Nat} {s s' : Listener α}

theorem steps_of_step {move : Move ι α} (h : s.step record idleGrace move = some s') : Steps s s' := by
  -- a move is taken at one point of the loop, or in some states of its handler
  cases move with (simp only [step] at h; split at h <;> try cases h)
  | poll stopRequested restartRequired =>
    rename_i hpoint
    split_ifs at h <;> cases h <;>
      exact .loop (.plain (by rw [hpoint]; rfl) (by rw [hpoint]; rfl) rfl rfl rfl)
  | accept accepted =>
    rename_i hpoint
    cases accepted with
    | failed | wouldBlock => exact .loop (.plain (by rw [hpoint]; rfl) (by rw [hpoint]; rfl) rfl rfl rfl)
    | foreign => exact .turnAway hpoint (.inl rfl)
    | loopback restartRequired =>
      simp only [accept]
      split
      · exact .turnAway hpoint (.inr rfl)
      · split
        · exact .accepts hpoint ‹_›
        · exact .turnAway hpoint (.inl rfl)
  | spawned started =>
    rename_i hpoint
    split at h
    · cases h
      exact .spawned hpoint
    · cases h
      exact .spawnFailed hpoint
  | readHandshakes =>
    rename_i hpoint
    exact .loop (.readHandshakes hpoint)
  | readOwners =>
    rename_i hpoint
    exact .loop (.readOwners hpoint of_decide_eq_true)
  | decide now activeCancellationsEmpty hasRetainedWorkspaceWork =>
    rename_i hpoint
    have hfrom : s.point.isSpawning = false := by rw [hpoint]; rfl
    have hleft : s.point.hasLeft = false := by rw [hpoint]; rfl
    simp only [decideIdle]
    split
    · rename_i hidle
      split
      · simp only [and_eq_true] at hidle
        obtain ⟨⟨⟨rfl, rfl⟩, -⟩, -⟩ := hidle
        exact .loop (.leave hpoint)
      · exact .loop (.plain hfrom hleft rfl rfl rfl)
    · exact .loop (.plain hfrom hleft rfl rfl rfl)
  | shutDown =>
    rename_i hpoint
    exact .loop (.shutDown hpoint)
  | handshake connection frame =>
    rename_i hhandler
    unfold handshake
    split
    · exact .handler hhandler nofun nofun rfl rfl rfl
    · exact .handler hhandler nofun nofun rfl rfl rfl
    · exact .dropSlot hhandler nofun rfl rfl rfl
  | acquire connection =>
    rename_i hhandler
    unfold acquire
    split
    · exact .handler hhandler nofun nofun rfl rfl rfl
    · exact .install hhandler ‹_›
  | releaseSlot connection =>
    rename_i hhandler
    exact .dropSlot hhandler nofun rfl rfl rfl
  | ready connection | timeOut connection | serve connection =>
    rename_i hhandler
    exact .handler hhandler nofun nofun rfl rfl rfl
  | look connection =>
    rename_i hhandler
    split <;> exact .handler hhandler nofun nofun rfl rfl rfl
  | leave connection =>
    -- a handshake still holds its slot, a session holds its lease
    rename_i hhandler
    first
    | exact .dropSlot hhandler nofun rfl rfl rfl
    | exact .handler hhandler nofun nofun rfl rfl rfl
  | releaseLease connection =>
    rename_i hhandler
    exact .dropLease hhandler

end Inversion

/-! ## The invariant -/

variable {s s' : Listener α}

/-- Some handler holds the lease. -/
def Held (handlers : Table Nat (Handler α)) (lease : α) : Prop :=
  ∃ connection handler, handlers.lookup connection = some handler ∧ handler.lease = some lease

theorem Held.set {handlers : Table Nat (Handler α)} (h : Held handlers lease)
    (hkept : ∀ handler, handlers.lookup connection = some handler → handler.lease = some lease →
      handler'.lease = some lease) : Held (set handlers connection (some handler')) lease := by
  obtain ⟨holder, handler, hholder, hlease⟩ := h
  by_cases heq : holder = connection
  · subst heq
    exact ⟨holder, handler', by rw [lookup_set, if_pos rfl], hkept handler hholder hlease⟩
  · exact ⟨holder, handler, by rw [lookup_set, if_neg heq, hholder], hlease⟩

/-- How the count, the lease set, the handlers and the loop agree. -/
structure Sound (s : Listener α) : Prop where
  admitted : s.admitted = count holdsSlot s.handlers
  bounded : s.admitted < usizeLimit
  fresh : ∀ {connection handler}, s.handlers.lookup connection = some handler → connection < s.next
  leased : ∀ {connection handler lease}, s.handlers.lookup connection = some handler →
    handler.lease = some lease → lease ∈ s.leases
  holder : ∀ {lease}, lease ∈ s.leases → Held s.handlers lease
  unique : ∀ {connection connection' handler handler' lease},
    s.handlers.lookup connection = some handler → s.handlers.lookup connection' = some handler' →
    handler.lease = some lease → handler'.lease = some lease → connection = connection'
  spawning : ∀ {connection}, s.handlers.lookup connection = some .spawning ↔ s.point = .spawning connection
  noHandshakes : s.point.sawNoHandshakes = true →
    ∀ {connection handler}, s.handlers.lookup connection = some handler → handler.holdsSlot = false
  noOwners : s.point.sawNoOwners = true →
    ∀ {connection handler}, s.handlers.lookup connection = some handler → handler.lease = none

attribute [grind →] Sound.fresh Sound.leased Sound.unique Sound.noHandshakes Sound.noOwners

attribute [grind =] Sound.spawning

theorem sound_start (idleSince : Nat) : Sound ({ idleSince := idleSince } : Listener α) := by
  constructor <;> simp [usizeLimit, sawNoHandshakes, sawNoOwners]

namespace Sound

section

variable (hs : Sound s)
include hs

theorem next_free : s.handlers.lookup s.next = none := by
  cases hhandler : s.handlers.lookup s.next with
  | none => rfl
  | some handler => exact absurd (hs.fresh hhandler) (lt_irrefl _)

theorem admitted_pos {handler : Handler α} (hhandler : s.handlers.lookup connection = some handler)
    (hslot : handler.holdsSlot = true) : 0 < s.admitted := by
  rw [hs.admitted]
  exact count_pos hhandler hslot

/-- A handler that gives its slot back leaves the exact count. -/
theorem fetchSub_count {handler : Handler α}
    (hhandler : s.handlers.lookup connection = some handler) (hslot : handler.holdsSlot = true)
    (hslot' : handler'.holdsSlot = false) :
    fetchSub s.admitted = count holdsSlot (set s.handlers connection (some handler'))
    ∧ fetchSub s.admitted < usizeLimit := by
  have hpos := hs.admitted_pos hhandler hslot
  have hcount := count_set holdsSlot s.handlers connection (some handler')
  rw [hhandler, any_some, any_some, hslot, hslot', ← hs.admitted] at hcount
  have hbounded := hs.bounded
  rw [fetchSub, if_neg hpos.ne']
  simp only [toNat_true, toNat_false] at hcount
  omega

theorem loop {idleSince : Nat} {shuttingDown : Bool} (hstep : LoopStep s point) :
    Sound { s with point := point, idleSince := idleSince, shuttingDown := shuttingDown } where
  __ := hs
  spawning := by cases hstep <;> grind [isSpawning]
  noHandshakes := by
    intro hsaw connection handler hhandler
    cases hstep with
    | plain _ _ _ hnot => exact absurd hsaw (by rw [hnot]; nofun)
    | readHandshakes =>
      have hzero : s.admitted = 0 := by
        cases hadmitted : s.admitted == 0 with
        | true => exact beq_iff_eq.mp hadmitted
        | false => simp [hadmitted, sawNoHandshakes] at hsaw
      by_contra hslot
      exact absurd hzero (hs.admitted_pos hhandler (by simpa using hslot)).ne'
    | @readOwners handshakesEmpty _ hfrom =>
      cases handshakesEmpty with
      | true => exact hs.noHandshakes (by rw [hfrom]; rfl) hhandler
      | false => cases hsaw
    | leave hfrom => exact hs.noHandshakes (by rw [hfrom]; rfl) hhandler
    | @shutDown reason hfrom =>
      cases reason with
      | idle => exact hs.noHandshakes (by rw [hfrom]; rfl) hhandler
      | stopped | restart | acceptFailed => cases hsaw
  noOwners := by
    intro hsaw connection handler hhandler
    cases hstep with
    | plain _ _ _ _ hnot => exact absurd hsaw (by rw [hnot]; nofun)
    | readHandshakes => cases hadmitted : s.admitted == 0 <;> simp [sawNoOwners] at hsaw
    | @readOwners handshakesEmpty ownersEmpty hfrom hempty =>
      obtain ⟨rfl, rfl⟩ : handshakesEmpty = true ∧ ownersEmpty = true := by
        cases handshakesEmpty <;> cases ownersEmpty <;> simp_all [sawNoOwners]
      cases hlease : handler.lease with
      | none => rfl
      | some lease =>
        have hmem := hs.leased hhandler hlease
        rw [hempty rfl] at hmem
        exact absurd hmem (notMem_empty _)
    | leave hfrom => exact hs.noOwners (by rw [hfrom]; rfl) hhandler
    | @shutDown reason hfrom =>
      cases reason with
      | idle => exact hs.noOwners (by rw [hfrom]; rfl) hhandler
      | stopped | restart | acceptFailed => cases hsaw

/-- A connection that the loop accepts and drops. -/
theorem turnAway (hfrom : s.point = .accepting)
    (hto : point = .readingHandshakes ∨ point = .left .restart) :
    Sound { s with
      handlers := set s.handlers s.next (some (.ended .turnedAway))
      point := point
      next := s.next + 1 } where
  admitted := by
    rw [hs.admitted, count_set_of_eq]
    rw [hs.next_free]
    rfl
  bounded := hs.bounded
  fresh := by grind
  leased := by grind [lease]
  holder := fun hlease => (hs.holder hlease).set fun handler hhandler => by simp [hs.next_free] at hhandler
  unique := by grind [lease]
  spawning := by grind
  noHandshakes := by grind [sawNoHandshakes]
  noOwners := by grind [sawNoOwners]

theorem accepts (hfrom : s.point = .accepting) (hroom : s.admitted + 1 < usizeLimit) :
    Sound { s with
      handlers := set s.handlers s.next (some .spawning)
      point := .spawning s.next
      admitted := s.admitted + 1
      next := s.next + 1 } where
  admitted := by
    have hcount := count_set holdsSlot s.handlers s.next (some .spawning)
    rw [hs.next_free, ← hs.admitted] at hcount
    exact hcount.symm
  bounded := hroom
  fresh := by grind
  leased := by grind [lease]
  holder := fun hlease => (hs.holder hlease).set fun handler hhandler => by simp [hs.next_free] at hhandler
  unique := by grind [lease]
  spawning := by grind
  noHandshakes := nofun
  noOwners := nofun

/-- The listener's own slot goes to the thread or is dropped with the closure. -/
theorem spawned {admitted : Nat} (hfrom : s.point = .spawning connection)
    (hspawning : handler' ≠ .spawning) (hlease : handler'.lease = none)
    (hadmitted : admitted = count holdsSlot (set s.handlers connection (some handler')))
    (hbounded : admitted < usizeLimit) :
    Sound { s with
      handlers := set s.handlers connection (some handler')
      point := .readingHandshakes
      admitted := admitted } where
  admitted := hadmitted
  bounded := hbounded
  fresh := by
    have := @hs.spawning
    grind
  leased := by grind
  holder := fun hheld => (hs.holder hheld).set fun handler hhandler hhas => by
    rw [hs.spawning.mpr hfrom] at hhandler
    cases hhandler
    cases hhas
  unique := by grind
  spawning := by grind
  noHandshakes := nofun
  noOwners := nofun

/-- A handler goes on with the lease it has. -/
theorem handler {handler : Handler α} {served : List Nat} {admitted : Nat}
    (hhandler : s.handlers.lookup connection = some handler) (hspawning : handler ≠ .spawning)
    (hspawning' : handler' ≠ .spawning) (hslot : handler'.holdsSlot = true → handler.holdsSlot = true)
    (hlease : handler'.lease = handler.lease)
    (hadmitted : admitted = count holdsSlot (set s.handlers connection (some handler')))
    (hbounded : admitted < usizeLimit) :
    Sound { s with
      handlers := set s.handlers connection (some handler')
      served := served
      admitted := admitted } where
  admitted := hadmitted
  bounded := hbounded
  fresh := by grind
  leased := by grind
  holder := fun hheld => (hs.holder hheld).set fun other hother hhas => by
    rw [hhandler] at hother
    cases hother
    rwa [hlease]
  unique := by grind
  spawning := by grind
  noHandshakes := by grind
  noOwners := by grind

end

variable [DecidableEq α]

theorem install (hs : Sound s)
    (hhandler : s.handlers.lookup connection = some (.acquiring lease)) (hnew : lease ∉ s.leases) :
    Sound { s with
      handlers := set s.handlers connection (some (.owning lease))
      leases := insert lease s.leases } where
  admitted := by
    rw [hs.admitted, count_set_of_eq]
    rw [hhandler]
    rfl
  bounded := hs.bounded
  fresh := by grind
  leased := by grind [lease]
  holder := by
    intro other hother
    rcases mem_insert.mp hother with rfl | hold
    · exact ⟨connection, .owning other, by rw [lookup_set, if_pos rfl], rfl⟩
    · refine (hs.holder hold).set fun handler hlookup hhas => ?_
      rw [hhandler] at hlookup
      cases hlookup
      cases hhas
  unique := by
    -- Whoever holds the new lease would have it in the set already.
    grind [lease]
  spawning := by grind
  noHandshakes := by
    intro hsaw
    have hslot := hs.noHandshakes hsaw hhandler
    cases hslot
  noOwners := by
    intro hsaw
    have hslot := hs.noHandshakes (sawNoHandshakes_of_sawNoOwners hsaw) hhandler
    cases hslot

theorem dropLease (hs : Sound s) (hhandler : s.handlers.lookup connection = some (.closing lease)) :
    Sound { s with
      handlers := set s.handlers connection (some (.ended .leaseGivenUp))
      leases := s.leases.erase lease } where
  admitted := by
    rw [hs.admitted, count_set_of_eq]
    rw [hhandler]
    rfl
  bounded := hs.bounded
  fresh := by grind
  leased := by
    intro other handler lease' hother hlease'
    rw [lookup_set] at hother
    split at hother
    · cases hother
      cases hlease'
    · rename_i hne
      refine mem_erase.mpr ⟨?_, hs.leased hother hlease'⟩
      rintro rfl
      exact hne (hs.unique hother hhandler hlease' rfl)
  holder := by
    intro other hother
    obtain ⟨hne, hold⟩ := mem_erase.mp hother
    refine (hs.holder hold).set fun handler hlookup hhas => ?_
    rw [hhandler] at hlookup
    cases hlookup
    cases hhas
    exact absurd rfl hne
  unique := by grind [lease]
  spawning := by grind
  noHandshakes := by grind [holdsSlot]
  noOwners := by grind [lease]

theorem steps (hs : Sound s) (h : Steps s s') : Sound s' := by
  cases h with
  | loop hstep => exact hs.loop hstep
  | turnAway hfrom hto => exact hs.turnAway hfrom hto
  | accepts hfrom hroom => exact hs.accepts hfrom hroom
  | spawned hfrom =>
    refine hs.spawned hfrom nofun rfl ?_ hs.bounded
    rw [hs.admitted, count_set_of_eq]
    rw [hs.spawning.mpr hfrom]
    rfl
  | spawnFailed hfrom =>
    obtain ⟨hadmitted, hbounded⟩ := hs.fetchSub_count (hs.spawning.mpr hfrom) rfl
      (show (ended .turnedAway : Handler α).holdsSlot = false from rfl)
    exact hs.spawned hfrom nofun rfl hadmitted hbounded
  | handler hhandler hspawning hspawning' _ hslot hlease =>
    refine hs.handler hhandler hspawning hspawning' (fun h => hslot ▸ h) hlease ?_ hs.bounded
    rw [hs.admitted, count_set_of_eq]
    rw [hhandler, any_some, any_some, hslot]
  | @dropSlot _ _ handler' hhandler hspawning hslot hslot' hlease =>
    obtain ⟨hadmitted, hbounded⟩ := hs.fetchSub_count hhandler hslot hslot'
    have hspawning' : handler' ≠ .spawning := by
      rintro rfl
      cases hslot'
    exact hs.handler hhandler hspawning hspawning' (fun _ => hslot) hlease hadmitted hbounded
  | install hhandler hnew => exact hs.install hhandler hnew
  | dropLease hhandler => exact hs.dropLease hhandler

end Sound

/-! ## After the loop has left -/

theorem Sound.ended_of_idle (hs : Sound s) (hsaw : s.point.sawNoOwners = true) {handler : Handler α}
    (hhandler : s.handlers.lookup connection = some handler) : handler.isEnded = true :=
  isEnded_of_idle (hs.noHandshakes (sawNoHandshakes_of_sawNoOwners hsaw) hhandler)
    (hs.noOwners hsaw hhandler)

/-- The loop left because of idleness. -/
def LeftIdle (s : Listener α) : Prop := s.point = .left .idle ∨ s.point = .shutDown .idle

theorem LeftIdle.sawNoOwners (h : LeftIdle s) : s.point.sawNoOwners = true := by
  rcases h with h | h <;> rw [h] <;> rfl

variable [DecidableEq α]

/-- Then nothing but the shutdown of the loop itself is left to do. -/
theorem Sound.steps_of_leftIdle (hs : Sound s) (hleft : LeftIdle s) (h : Steps s s') :
    LeftIdle s' ∧ s'.handlers = s.handlers ∧ s'.served = s.served := by
  have hsaw := hleft.sawNoOwners
  cases h with
  | loop hstep =>
    refine ⟨?_, rfl, rfl⟩
    cases hstep with
    | plain _ hnot => rcases hleft with h | h <;> rw [h] at hnot <;> cases hnot
    | readHandshakes hfrom | readOwners hfrom | leave hfrom => rcases hleft with h | h <;> cases hfrom.symm.trans h
    | shutDown hfrom =>
      rcases hleft with h | h
      · cases hfrom.symm.trans h
        exact .inr rfl
      · cases hfrom.symm.trans h
  | turnAway hfrom | accepts hfrom | spawned hfrom | spawnFailed hfrom =>
    rcases hleft with h | h <;> cases hfrom.symm.trans h
  | handler hhandler _ _ hnot =>
    rw [hs.ended_of_idle hsaw hhandler] at hnot
    cases hnot
  | dropSlot hhandler _ hslot =>
    rw [hs.noHandshakes (sawNoHandshakes_of_sawNoOwners hsaw) hhandler] at hslot
    cases hslot
  | install hhandler | dropLease hhandler => cases hs.ended_of_idle hsaw hhandler

/-- The count moves by one at most. -/
theorem Sound.admitted_le (hs : Sound s) (h : Steps s s') : s'.admitted ≤ s.admitted + 1 := by
  cases h with
  | loop | turnAway | spawned | handler | install | dropLease => exact Nat.le_succ _
  | accepts => exact le_rfl
  | spawnFailed hfrom =>
    have hpos := hs.admitted_pos (hs.spawning.mpr hfrom) rfl
    show fetchSub s.admitted ≤ s.admitted + 1
    rw [fetchSub, if_neg hpos.ne']
    omega
  | dropSlot hhandler _ hslot =>
    have hpos := hs.admitted_pos hhandler hslot
    show fetchSub s.admitted ≤ s.admitted + 1
    rw [fetchSub, if_neg hpos.ne']
    omega

variable [DecidableEq ι] {record : V5EndpointRecord ι} {idleGrace idleSince : Nat}

theorem sound_of_runs
    (h : Runs (step record idleGrace) (fun _ _ => True) ({ idleSince := idleSince } : Listener α) s) : Sound s :=
  h.invariant (sound_start idleSince) fun _ _ _ hs _ hstep => hs.steps (steps_of_step hstep)

theorem silent_of_leftIdle (hs : Sound s) (hleft : LeftIdle s)
    (h : Runs (step record idleGrace) (fun _ _ => True) s s') : s'.handlers = s.handlers ∧ s'.served = s.served := by
  have hall := h.invariant
    (I := fun t => Sound t ∧ LeftIdle t ∧ t.handlers = s.handlers ∧ t.served = s.served) ⟨hs, hleft, rfl, rfl⟩
    fun t _ t' ht _ hstep => by
      obtain ⟨htsound, htleft, hhandlers, hserved⟩ := ht
      have hsteps := steps_of_step hstep
      obtain ⟨hleft', hhandlers', hserved'⟩ := htsound.steps_of_leftIdle htleft hsteps
      exact ⟨htsound.steps hsteps, hleft', hhandlers'.trans hhandlers, hserved'.trans hserved⟩
  exact hall.2.2

/-- In every state that any interleaving of the loop with its handlers reaches: when the loop has
left because of idleness every accepted connection has ended, and no later state has an open
session or a served request more; two handlers never hold one lease; the count of slots is the
number of handlers before or inside their handshake and no step wraps it; and while a connection
has not ended, each decision of the loop counts it as activity. -/
theorem idle_shutdown_cuts_no_client
    (h : Runs (step record idleGrace) (fun _ _ => True) ({ idleSince := idleSince } : Listener α) s) :
    (s.point = .left .idle →
      (∀ connection handler, s.handlers.lookup connection = some handler → ∃ departure, handler = .ended departure)
      ∧ ∀ later, Runs (step record idleGrace) (fun _ _ => True) s later →
        later.handlers = s.handlers ∧ later.served = s.served)
    ∧ (∀ connection connection' handler handler' lease,
      s.handlers.lookup connection = some handler → s.handlers.lookup connection' = some handler' →
      handler.lease = some lease → handler'.lease = some lease → connection = connection')
    ∧ (s.admitted = count holdsSlot s.handlers
      ∧ ∀ move next, s.step record idleGrace move = some next → next.admitted ≤ s.admitted + 1)
    ∧ (∀ connection handler now activeCancellationsEmpty hasRetainedWorkspaceWork next,
      s.handlers.lookup connection = some handler → handler.isEnded = false →
      s.step record idleGrace (.decide now activeCancellationsEmpty hasRetainedWorkspaceWork) = some next →
      next.point = .polling ∧ next.idleSince = now) := by
  have hs := sound_of_runs h
  refine ⟨?_, ?_, ⟨hs.admitted, ?_⟩, ?_⟩
  · intro hpoint
    have hleft : LeftIdle s := .inl hpoint
    refine ⟨fun connection handler hhandler => ?_, fun later hlater => silent_of_leftIdle hs hleft hlater⟩
    have hended := hs.ended_of_idle hleft.sawNoOwners hhandler
    cases handler with
    | ended departure => exact ⟨departure, rfl⟩
    | _ => cases hended
  · intro connection connection' handler handler' lease hhandler hhandler' hlease hlease'
    exact hs.unique hhandler hhandler' hlease hlease'
  · intro move next hstep
    exact hs.admitted_le (steps_of_step hstep)
  · intro connection handler now activeCancellationsEmpty hasRetainedWorkspaceWork next hhandler hlive hstep
    simp only [step] at hstep
    split at hstep
    · rename_i handshakesEmpty ownersEmpty hpoint
      -- Had both reads found nothing, the connection would have ended.
      have hactive : (ownersEmpty && handshakesEmpty) = false := by
        by_contra hidle
        simp only [Bool.not_eq_false, Bool.and_eq_true] at hidle
        obtain ⟨rfl, rfl⟩ := hidle
        rw [hs.ended_of_idle (by rw [hpoint]; rfl) hhandler] at hlive
        cases hlive
      cases hstep
      simp [decideIdle, hactive]
    · cases hstep

/-- One client: the first decision finds it in its handshake, the second finds it gone. -/
def oneClient : List (Move Nat Nat) :=
  [.poll false false, .accept (.loopback false), .spawned true, .readHandshakes, .readOwners, .decide 10 true false,
    .handshake 0 (.hello ⟨5, [1], 3, 7⟩), .acquire 0, .releaseSlot 0, .ready 0, .look 0, .serve 0, .leave 0,
    .releaseLease 0, .poll false false, .accept .wouldBlock, .readHandshakes, .readOwners, .decide 100 true false]

theorem idle_shutdown_cuts_no_client_oneClient :
    ∃ s : Listener Nat, replay (step ⟨3, [1]⟩ 50) { idleSince := 0 } oneClient = some s
      ∧ s.point = .left .idle ∧ s.served = [0]
      ∧ ∀ later, Runs (step (⟨3, [1]⟩ : V5EndpointRecord Nat) 50) (fun _ _ => True) s later → later.served = [0] := by
  obtain ⟨s, hs, hpoint, hserved⟩ : ∃ s,
      replay (step ⟨3, [1]⟩ 50) { idleSince := 0 } oneClient = some s ∧ s.point = .left .idle ∧ s.served = [0] :=
    ⟨_, rfl, rfl, rfl⟩
  obtain ⟨hidle, -⟩ := idle_shutdown_cuts_no_client (Runs.of_replay hs)
  exact ⟨s, hs, hpoint, hserved, fun later hlater => ((hidle hpoint).2 later hlater).2.trans hserved⟩

/-! ## Authentication -/

/-- A hello with the version, the core identity and the token of the endpoint. -/
def Authentic (record : V5EndpointRecord ι) (hello : V5Hello ι α) : Prop :=
  hello.protocolVersion = 5 ∧ hello.coreIdentity = record.coreIdentity ∧ hello.token = record.token

/-- Nothing was served to the connection, and its handshake was not accepted. -/
structure Distrusts (connection : Nat) (s : Listener α) : Prop where
  unserved : connection ∉ s.served
  unleased : ∀ handler, s.handlers.lookup connection = some handler →
    handler.lease = none ∧ ∀ lease, handler ≠ .acquiring lease

theorem Distrusts.step (hs : Distrusts connection s) {move : Move ι α}
    (hmove : ∀ hello, Authentic record hello → move ≠ .handshake connection (.hello hello))
    (h : s.step record idleGrace move = some s') : Distrusts connection s' := by
  obtain ⟨hserved, hhandlers⟩ := hs
  -- only an authentic hello leads to a lease; every other move takes a handler on or ends it
  cases move with (simp only [Listener.step] at h; split at h <;> try cases h)
  | handshake c frame =>
    unfold handshake
    refine ⟨by split <;> exact hserved, fun handler hlookup => ?_⟩
    cases frame with
    | hello hello =>
      have hhello := hmove hello
      simp only [checkHandshake, daemonProtocolVersion] at hlookup
      grind [setHandler, failHandshake, Handler.lease, tokensEqual_iff, Authentic]
    | _ => grind [setHandler, failHandshake, Handler.lease, checkHandshake]
  | accept accepted => cases accepted <;> constructor <;> grind [setHandler, turnAway, accept, Handler.lease]
  | _ => constructor <;> grind [setHandler, failHandshake, acquire, decideIdle, Handler.lease]

/-- Whatever the loop and the other connections do in between, a request is served only to a
connection that has sent an authentic hello. -/
theorem served_was_authenticated {moves : List (Move ι α)}
    (h : replay (step record idleGrace) { idleSince := idleSince } moves = some s)
    (hserved : connection ∈ s.served) :
    ∃ hello, Authentic record hello ∧ .handshake connection (.hello hello) ∈ moves := by
  by_contra hno
  have hstart : Distrusts connection ({ idleSince := idleSince } : Listener α) :=
    ⟨List.not_mem_nil, by intro _ hlookup; cases hlookup⟩
  have hs : Distrusts connection s := replay_invariant h hstart fun t move hmem t' ht hstep =>
    ht.step (fun hello hauthentic heq => hno ⟨hello, hauthentic, heq ▸ hmem⟩) hstep
  exact hs.unserved hserved

theorem replay_oneClient : ∃ s, replay (step (⟨3, [1]⟩ : V5EndpointRecord Nat) 50) { idleSince := 0 } oneClient = some s
    ∧ s.point = .left .idle ∧ s.served = [0] := ⟨_, rfl, rfl, rfl⟩

theorem served_was_authenticated_oneClient :
    ∃ hello : V5Hello Nat Nat, Authentic ⟨3, [1]⟩ hello ∧ .handshake 0 (.hello hello) ∈ oneClient := by
  obtain ⟨s, hs, -, hserved⟩ := replay_oneClient
  exact served_was_authenticated hs (hserved ▸ List.mem_singleton_self 0)

/-- Nothing leaks: once all handlers have ended, in whatever way, no slot and no lease is taken. -/
theorem ended_handlers_leave_nothing
    (h : Runs (step record idleGrace) (fun _ _ => True) ({ idleSince := idleSince } : Listener α) s)
    (hended : ∀ connection handler, s.handlers.lookup connection = some handler → handler.isEnded = true) :
    s.admitted = 0 ∧ s.leases = ∅ := by
  have hs := sound_of_runs h
  constructor
  · by_contra hslots
    obtain ⟨connection, handler, hhandler, hslot⟩ := exists_of_count_pos (hs.admitted ▸ Nat.pos_of_ne_zero hslots)
    have hend := hended connection handler hhandler
    cases handler with
    | ended => cases hslot
    | _ => cases hend
  · refine eq_empty_of_forall_notMem fun lease hlease => ?_
    obtain ⟨connection, handler, hhandler, hholds⟩ := hs.holder hlease
    have hend := hended connection handler hhandler
    cases handler with
    | ended => cases hholds
    | _ => cases hend

theorem ended_handlers_leave_nothing_oneClient : ∃ s : Listener Nat, s.served = [0] ∧ s.admitted = 0 ∧ s.leases = ∅ := by
  obtain ⟨s, hs, hpoint, hserved⟩ := replay_oneClient
  have hrun := Runs.of_replay hs
  exact ⟨s, hserved, ended_handlers_leave_nothing hrun fun _ _ =>
    (sound_of_runs hrun).ended_of_idle (by rw [hpoint]; rfl)⟩

end Listener

end Unica.Daemon
