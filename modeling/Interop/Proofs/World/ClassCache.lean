import Interop.Proofs.Handle.RecencyOrder
import Interop.Proofs.Registry.Naming
import Interop.Proofs.World.Tasks
import Interop.Session.Steps

/-!
Class handles by name. The bridge keeps the handles of the classes that were asked for last. The
cache is a list by recency: what is found in it is moved to the front, what is made is put there,
and for that the last entry goes if the list is full. A request that fails leaves it alone. A handle
that is found has the type that its name stands for, since names are never given to other types.
-/
namespace Interop

variable {w w' : World} {name : String} {id : ClassId} {m : List (String × ClassId)}

namespace Bridge

/-- A handle of the type itself. -/
def plainClass (r : Registry) (type : TypeId) : ClassHandle :=
  { type := type, reported := type, name := r.typeName type, kind := .plain }

inductive ClassOutcome (w : World) (name : String) :
    Task.Outcome BridgeError ClassId → Prop where
  | closed (closed : w.gate.isOpen = false) : ClassOutcome w name (.error .notRegistered w)
  | hit {id : ClassId} {events : List Event} (isOpen : w.gate.isOpen = true)
      (found : (w.classCache.get name).1 = some id) :
      ClassOutcome w name (.ok id { w with
        classCache := (w.classCache.get name).2
        events := events })
  | unnamed {e : BridgeError} (missing : (w.classCache.get name).1 = none) (unnamed : name = "") :
      ClassOutcome w name (.error e w)
  | absent {e : BridgeError} (missing : (w.classCache.get name).1 = none)
      (absent : (w.registry.lookup name).1 = none) :
      ClassOutcome w name (.error e { w with registry := (w.registry.lookup name).2 })
  | made {type : TypeId} {events : List Event} (isOpen : w.gate.isOpen = true)
      (missing : (w.classCache.get name).1 = none)
      (found : (w.registry.lookup name).1 = some type) :
      ClassOutcome w name (.ok ⟨w.classes.length⟩ { w with
        registry := (w.registry.lookup name).2
        classes := w.classes ++ [plainClass (w.registry.lookup name).2 type]
        classCache := (w.classCache.put name ⟨w.classes.length⟩).2
        events := events })

theorem checkRegistered_eq (w : World) :
    checkRegistered w = if w.gate.isOpen then .ok () w else .error .notRegistered w := by
  unfold checkRegistered
  rw [Task.get_bind]
  cases w.gate.isOpen <;> rfl

theorem requireType_eq (w : World) (name : String) :
    requireType name w =
      if name = "" then .error (.invalidArgument .emptyClassName) w
      else match (w.registry.lookup name).1 with
        | some type => .ok type { w with registry := (w.registry.lookup name).2 }
        | none =>
          .error (.notFound (.cls name)) { w with registry := (w.registry.lookup name).2 } := by
  unfold requireType
  by_cases unnamed : name = ""
  · simp only [if_pos unnamed]
    rfl
  · simp only [if_neg unnamed]
    have looked : (Task.lookupType name : Task BridgeError _) w =
        .ok (w.registry.lookup name).1 { w with registry := (w.registry.lookup name).2 } := rfl
    rw [Task.bind_ok looked]
    cases (w.registry.lookup name).1 <;> rfl

theorem getClass_outcome (w : World) (name : String) :
    ClassOutcome w name (getClass name w) := by
  have checked := checkRegistered_eq w
  have required := requireType_eq w name
  unfold getClass
  cases isOpen : w.gate.isOpen with
  | false =>
    rw [isOpen] at checked
    rw [Task.bind_error checked]
    exact .closed isOpen
  | true =>
    rw [isOpen] at checked
    rw [Task.bind_ok checked, Task.get_bind]
    cases found : (w.classCache.get name).1 with
    | some id =>
      have pair : w.classCache.get name = (some id, (w.classCache.get name).2) := by
        rw [← found]
      rw [pair]
      exact .hit isOpen found
    | none =>
      have pair : w.classCache.get name = (none, (w.classCache.get name).2) := by
        rw [← found]
      rw [pair]
      dsimp only
      by_cases unnamed : name = ""
      · rw [if_pos unnamed] at required
        rw [Task.bind_error required]
        exact .unnamed found unnamed
      · rw [if_neg unnamed] at required
        cases lookedUp : (w.registry.lookup name).1 with
        | none =>
          rw [lookedUp] at required
          rw [Task.bind_error required]
          exact .absent found lookedUp
        | some type =>
          rw [lookedUp] at required
          have read : ∀ w : World, (get : Task BridgeError World) w = .ok w w := fun _ => rfl
          have write : ∀ w' w : World, (set w' : Task BridgeError PUnit) w = .ok ⟨⟩ w' :=
            fun _ _ => rfl
          have note : ∀ (event : Event) (w : World), (Task.emit event : Task BridgeError Unit) w =
              .ok () { w with events := w.events ++ [event] } := fun _ _ => rfl
          rw [Task.bind_ok required]
          simp only [bind, EStateM.bind, read, write, note, Task.addClass]
          -- The event for the entry that had to go is all that depends on it.
          cases (w.classCache.put name ⟨w.classes.length⟩).1 with
          | none => exact .made isOpen found lookedUp
          | some old => exact .made isOpen found lookedUp

end Bridge

/-- What touches the cache of classes, and what may happen to types and to the gate between. -/
inductive ClassStep where
  | getClass (name : String)
  | cached (name : String)
  | clear
  | registry (operation : Registry.Operation)
  | turnGate (isOpen : Bool)

namespace ClassStep

/-- The world after a step, whether it succeeds or fails. -/
def apply (w : World) : ClassStep → World
  | getClass name => stateAfter (Bridge.getClass name w)
  | cached name => stateAfter (Session.cachedClass name w)
  | clear => stateAfter (Session.clearClasses w)
  | registry operation => { w with registry := operation.apply w.registry }
  | turnGate isOpen => stateAfter (Session.turnGate isOpen w)

/-- What a step in the world `w` makes of the list by recency. -/
def recents (w : World) (capacity : Nat) (m : List (String × ClassId)) :
    ClassStep → List (String × ClassId)
  | getClass name =>
    match Bridge.getClass name w, m.lookup name with
    | .error _ _, _ => m
    | .ok _ _, some _ => Recents.use name m
    | .ok id _, none => Recents.store capacity name id m
  | cached name => Recents.use name m
  | clear => []
  | registry _ => m
  | turnGate _ => m

end ClassStep

/-- What steps make of the list by recency, one after the other. -/
def recentsAfter (capacity : Nat) (w : World) (m : List (String × ClassId)) :
    List ClassStep → List (String × ClassId)
  | [] => m
  | step :: rest => recentsAfter capacity (step.apply w) (step.recents w capacity m) rest

/-- The cache stands for the list, and names in it stand for the types of their handles. -/
structure World.Caches (w : World) (capacity : Nat) (m : List (String × ClassId)) : Prop where
  capacity : w.classCache.capacity = capacity
  refines : w.classCache.Refines m
  named : ∀ entry ∈ m, ∃ h, w.class? entry.2 = some h ∧ w.registry.named? entry.1 = some h.type
  settled : w.registry.Settled
  titled : w.registry.Titled

namespace World.Caches

variable {capacity : Nat}

theorem initial (config : Config) (gate : Gate) :
    (World.initial config gate).Caches (max config.classCacheSize 1) [] where
  capacity := rfl
  refines := RecencyCache.refines_empty _
  named := by simp
  settled := Registry.settled_initial
  titled := Registry.titled_initial

/-- Names and class handles are never taken back. -/
theorem keep {entry : String × ClassId} (before : w.Caches capacity m) (member : entry ∈ m)
    (classes : w.classes <+: w'.classes) (names : w.registry.KeepsNames w'.registry) :
    ∃ h, w'.class? entry.2 = some h ∧ w'.registry.named? entry.1 = some h.type := by
  obtain ⟨h, found, named⟩ := before.named entry member
  obtain ⟨later, extended⟩ := classes
  have inRange : entry.2.index < w.classes.length := (List.getElem?_eq_some_iff.mp found).1
  refine ⟨h, ?_, names named⟩
  rw [World.class?, ← extended, List.getElem?_append_left inRange]
  exact found

theorem onRegistry (before : w.Caches capacity m) (operation : Registry.Operation) :
    World.Caches { w with registry := operation.apply w.registry } capacity m where
  capacity := before.capacity
  refines := before.refines
  named _ member :=
    before.keep member (List.prefix_refl _) (Registry.keepsNames_apply operation w.registry)
  settled := (before.settled.apply operation).1
  titled := before.titled.apply before.settled operation

/-- A name is used that may be in the cache. -/
theorem used (before : w.Caches capacity m) (name : String) (events : List Event) :
    World.Caches { w with classCache := (w.classCache.get name).2, events := events } capacity
      (Recents.use name m) where
  capacity := (RecencyCache.capacity_get _ _).trans before.capacity
  refines := (before.refines.get name).2
  named entry member := before.named entry (Recents.mem_of_mem_use member)
  settled := before.settled
  titled := before.titled

/-- A handle of the type that a name stands for is put into the cache. -/
theorem stored {type : TypeId} (before : w.Caches capacity m)
    (found : (w.registry.lookup name).1 = some type) (events : List Event) :
    World.Caches { w with
        registry := (w.registry.lookup name).2
        classes := w.classes ++ [Bridge.plainClass (w.registry.lookup name).2 type]
        classCache := (w.classCache.put name ⟨w.classes.length⟩).2
        events := events } capacity (Recents.store capacity name ⟨w.classes.length⟩ m) where
  capacity := before.capacity
  refines := by
    have put := (before.refines.put name ⟨w.classes.length⟩).2
    rwa [before.capacity] at put
  named := by
    intro entry member
    rcases Recents.of_mem_store member with rfl | old
    · refine ⟨Bridge.plainClass (w.registry.lookup name).2 type, ?_, ?_⟩
      · simp [World.class?]
      · exact Registry.named_of_lookup before.settled before.titled found
    · exact before.keep old (List.prefix_append _ _)
        (Registry.keepsNames_apply (.lookup name) w.registry)
  settled := (before.settled.apply (.lookup name)).1
  titled := before.titled.apply before.settled (.lookup name)

theorem step (before : w.Caches capacity m) (step : ClassStep) :
    (step.apply w).Caches capacity (step.recents w capacity m) := by
  cases step with
  | getClass name =>
    have outcome := Bridge.getClass_outcome w name
    have lookup := (before.refines.get name).1
    simp only [ClassStep.apply, ClassStep.recents]
    generalize Bridge.getClass name w = result at outcome
    cases outcome with
    | closed closed => exact before
    | hit isOpen found =>
      rw [lookup] at found
      simp only [found]
      exact before.used name _
    | unnamed missing unnamed => exact before
    | absent missing absent => exact before.onRegistry (.lookup name)
    | made isOpen missing found =>
      rw [lookup] at missing
      simp only [missing]
      exact before.stored found _
  | cached name => exact before.used name w.events
  | clear =>
    refine { before with refines := before.refines.clear, named := ?_ }
    intro entry member
    cases member
  | registry operation => exact before.onRegistry operation
  | turnGate isOpen => exact { before with }

theorem run (before : w.Caches capacity m) (steps : List ClassStep) :
    (steps.foldl ClassStep.apply w).Caches capacity (recentsAfter capacity w m steps) := by
  induction steps generalizing w m with
  | nil => exact before
  | cons step rest ih => exact ih (before.step step)

end World.Caches

/-- The class handle is there, and its type is what the name stands for. -/
def World.Stands (w : World) (name : String) (id : ClassId) : Prop :=
  ∃ h, w.class? id = some h ∧ w.registry.lookup name = (some h.type, w.registry)

theorem World.Caches.stands {capacity : Nat} (caches : w.Caches capacity m)
    (member : (name, id) ∈ m) : w.Stands name id := by
  obtain ⟨h, found, named⟩ := caches.named _ member
  exact ⟨h, found, Registry.lookup_of_named named⟩

/-- The cache of classes is the list `m` by recency, of bounded length, and serves classes so. -/
structure World.ServesClasses (w : World) (capacity : Nat) (m : List (String × ClassId)) :
    Prop where
  refines : w.classCache.Refines m
  unique : ∀ {m'}, w.classCache.Refines m' → m' = m
  bound : m.length ≤ capacity
  stamps : (w.classCache.entries.map Stamped.stamp).Nodup
  /-- In whatever order the entries are stored, the same one has to go: the last one. -/
  evicted : ∀ {es}, es.Perm w.classCache.entries → ∀ name id,
    ({ w.classCache with entries := es }.put name id).1 = Recents.evicted? capacity name m
  /-- A name that is in the list gives its own handle. -/
  hit : ∀ {name id}, w.gate.isOpen = true → m.lookup name = some id →
    ∃ w', Bridge.getClass name w = .ok id w' ∧ w'.classCache.Refines (Recents.use name m) ∧
      w'.Stands name id
  /-- Another name that stands for a type gets a new handle, which is put into the list. -/
  miss : ∀ {name type}, w.gate.isOpen = true → m.lookup name = none → name ≠ "" →
    (w.registry.lookup name).1 = some type →
      ∃ id w', Bridge.getClass name w = .ok id w' ∧ w.class? id = none ∧
        w'.classCache.Refines (Recents.store capacity name id m) ∧ w'.Stands name id
  failure : ∀ {name e w'}, Bridge.getClass name w = .error e w' → w'.classCache = w.classCache
  cached : ∀ name, ∃ w', Session.cachedClass name w = .ok (m.lookup name) w' ∧
    w'.classCache.Refines (Recents.use name m) ∧
    ∀ id, m.lookup name = some id → w'.Stands name id
  clear : ∃ w', Session.clearClasses w = .ok () w' ∧ w'.classCache.Refines []

theorem World.Caches.serves {capacity : Nat} (caches : w.Caches capacity m) :
    w.ServesClasses capacity m := by
  have lookup : ∀ name, (w.classCache.get name).1 = m.lookup name :=
    fun name => (caches.refines.get name).1
  constructor
  case refines => exact caches.refines
  case unique => exact fun other => caches.refines.unique other
  case bound => exact caches.capacity ▸ caches.refines.length_le
  case stamps => exact caches.refines.stamps_nodup
  case evicted =>
    intro es stored name id
    rw [← caches.capacity]
    exact ((caches.refines.perm stored).put name id).1
  case hit =>
    intro name id isOpen found
    have outcome := Bridge.getClass_outcome w name
    have member := Recents.mem_use found
    rw [← lookup] at found
    generalize Bridge.getClass name w = result at outcome
    cases outcome with
    | closed closed => simp [isOpen] at closed
    | @hit _ events _ here =>
      rw [found] at here
      cases here
      have used := caches.used name events
      exact ⟨_, rfl, used.refines, used.stands member⟩
    | unnamed missing _ => simp [found] at missing
    | absent missing _ => simp [found] at missing
    | made _ missing _ => simp [found] at missing
  case miss =>
    intro name type isOpen missing named found
    have outcome := Bridge.getClass_outcome w name
    rw [← lookup] at missing
    generalize Bridge.getClass name w = result at outcome
    cases outcome with
    | closed closed => simp [isOpen] at closed
    | hit _ here => simp [missing] at here
    | unnamed _ unnamed => exact absurd unnamed named
    | absent _ absent => simp [found] at absent
    | @made _ events _ _ here =>
      have stored := caches.stored here events
      have new : w.class? ⟨w.classes.length⟩ = none := List.getElem?_eq_none (Nat.le_refl _)
      exact ⟨_, _, rfl, new, stored.refines, stored.stands (Recents.mem_store _ _ _ _)⟩
  case failure =>
    intro name e w' failed
    have outcome := Bridge.getClass_outcome w name
    rw [failed] at outcome
    cases outcome <;> rfl
  case cached =>
    intro name
    have used := caches.used name w.events
    refine ⟨_, congrArg (EStateM.Result.ok · _) (lookup name), used.refines, ?_⟩
    exact fun id found => used.stands (Recents.mem_use found)
  case clear => exact ⟨_, rfl, caches.refines.clear⟩

/-- After any steps the cache of classes is a list by recency, and it goes on as such. -/
theorem class_cache_by_recency (config : Config) (gate : Gate) (steps : List ClassStep) :
    (steps.foldl ClassStep.apply (.initial config gate)).ServesClasses
      (max config.classCacheSize 1)
      (recentsAfter (max config.classCacheSize 1) (.initial config gate) [] steps) :=
  ((World.Caches.initial config gate).run steps).serves

end Interop
