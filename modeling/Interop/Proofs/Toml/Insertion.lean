import Interop.Proofs.Toml.Continuation

/-!
Tables next to each other do not matter to one another. If a document never touches a name at its
top, then it is read in the same way with one more entry of that name, and the entry stays as it is:
each step sets or removes one entry of the root, which it finds by its name. That the name is never
touched can be seen at the end, since an entry at the top is never lost.
-/
namespace Interop.Toml

variable {α : Type} {name key : String} {item : Item} {node node' changed : Node}
  {path : List String} {dottedKey : Bool} {final : Node → Option Node}

theorem lookup_entry (name key : String) (value : α) (rest : List (String × α)) :
    ((key, value) :: rest).lookup name = if name = key then some value else rest.lookup name := by
  rw [List.lookup_cons]
  split <;> simp_all

theorem lookup_replaced (entries : List (String × α)) (key name : String) (value : α) :
    (entries.map fun entry => if entry.1 == key then (key, value) else entry).lookup name =
      if name = key then (entries.lookup key).map fun _ => value else entries.lookup name := by
  induction entries with
  | nil => simp
  | cons entry rest ih =>
    obtain ⟨own, old⟩ := entry
    by_cases same : own = key
    · have replaced : (if own == key then (key, value) else (own, old)) = (key, value) :=
        if_pos (beq_iff_eq.mpr same)
      rw [List.map_cons, replaced, lookup_entry, lookup_entry, lookup_entry, ih, same]
      split <;> simp
    · have kept : (if own == key then (key, value) else (own, old)) = (own, old) :=
        if_neg (by simpa using same)
      rw [List.map_cons, kept, lookup_entry, lookup_entry, lookup_entry, ih,
        if_neg (Ne.symm same)]
      by_cases found : name = own
      · rw [if_pos found, if_neg (found ▸ same), if_pos found]
      · rw [if_neg found, if_neg found]

namespace Node

/-- Puts what the present entry gives in its place, if it gives something. -/
def update (node : Node) (key : String) (next : Option Item → Option Item) : Option Node :=
  (next (node.get? key)).map (node.put key)

theorem get?_put_self (node : Node) (key : String) (item : Item) :
    (node.put key item).get? key = some item := by
  rw [get?, put, entries]
  split
  · next there =>
    rw [lookup_replaced, if_pos rfl]
    obtain ⟨old, present⟩ := Option.isSome_iff_exists.mp there
    rw [← get?, present]
    rfl
  · next absent =>
    rw [Bool.not_eq_true, Option.isSome_eq_false_iff, Option.isNone_iff_eq_none] at absent
    rw [List.lookup_append, ← get?, absent, lookup_entry, if_pos rfl]
    rfl

theorem get?_put_other (other : key ≠ name) : (node.put key item).get? name = node.get? name := by
  rw [get?, put, entries]
  split
  · rw [lookup_replaced, if_neg other.symm]
    rfl
  · rw [List.lookup_append, lookup_entry, if_neg other.symm]
    exact Option.or_none

theorem get?_remove_other (other : key ≠ name) : (node.remove key).get? name = node.get? name := by
  unfold remove get?
  rw [entries]
  induction node.entries with
  | nil => rfl
  | cons entry rest ih =>
    obtain ⟨own, value⟩ := entry
    by_cases same : own = key
    · simp [same, lookup_entry, other.symm, ih]
    · simp [same, lookup_entry, ih]

variable {next : Option Item → Option Item}

theorem get?_update_self (updated : node.update key next = some node') :
    (node'.get? key).isSome = true := by
  obtain ⟨item, _, rfl⟩ := Option.map_eq_some_iff.mp updated
  rw [get?_put_self]
  rfl

theorem get?_update_other (other : key ≠ name) (updated : node.update key next = some node') :
    node'.get? name = node.get? name := by
  obtain ⟨item, _, rfl⟩ := Option.map_eq_some_iff.mp updated
  exact get?_put_other other

/-- No entry is lost. -/
theorem get?_update (updated : node.update key next = some node')
    (there : (node.get? name).isSome = true) : (node'.get? name).isSome = true := by
  by_cases same : key = name
  · exact same ▸ get?_update_self updated
  · rw [get?_update_other same updated]
    exact there

/-- What a change makes of the entry that the path starts with. -/
def enter (dottedKey : Bool) (final : Node → Option Node) (path : List String) :
    Option Item → Option Item
  | none => (change dottedKey final path (mk [] true dottedKey)).map .table
  | some (.table inner) =>
    if dottedKey && !inner.isImplicit then none else (change dottedKey final path inner).map .table
  | some (.tables nodes) =>
    nodes.getLast?.bind fun last =>
      (change dottedKey final path last).map fun last => .tables (nodes.dropLast ++ [last])
  | some (.value _) => none

/-- A change below the root sets the entry that its path starts with, and no other. -/
theorem change_cons (node : Node) :
    node.change dottedKey final (key :: path) = node.update key (enter dottedKey final path) := by
  unfold update
  rw [change]
  cases node.get? key with
  | none => simp [enter, Option.map_eq_bind, Option.bind_assoc]
  | some item =>
    cases item with
    | value value => rfl
    | table inner =>
      simp only [enter]
      split <;> simp [Option.map_eq_bind, Option.bind_assoc]
    | tables nodes =>
      simp only [enter]
      cases nodes.getLast? <;> simp [Option.map_eq_bind, Option.bind_assoc]

theorem get?_change (final_keeps : ∀ {node node' : Node}, final node = some node' →
      path = [] → (node.get? name).isSome = true → (node'.get? name).isSome = true)
    (done : node.change dottedKey final path = some node')
    (there : (node.get? name).isSome = true) : (node'.get? name).isSome = true := by
  cases path with
  | nil => exact final_keeps done rfl there
  | cons key path =>
    rw [change_cons] at done
    exact get?_update done there

theorem get?_change_other (elsewhere : path.head? ≠ some name)
    (final_keeps : ∀ {node node' : Node}, final node = some node' →
      path = [] → node'.get? name = node.get? name)
    (done : node.change dottedKey final path = some node') :
    node'.get? name = node.get? name := by
  cases path with
  | nil => exact final_keeps done rfl
  | cons key path =>
    rw [change_cons] at done
    exact get?_update_other (by rintro rfl; exact elsewhere rfl) done

end Node

variable {reading reading' : Reading} {root : Node} {last : String} {front : List String}

/-- Where a path does not start with the name, nothing that is done on the way touches it. -/
theorem elsewhere_front (elsewhere : (front ++ [last]).head? ≠ some name) :
    front.head? ≠ some name ∧ (front = [] → last ≠ name) := by
  cases front with
  | nil => exact ⟨by simp, fun _ same => elsewhere (congrArg some same)⟩
  | cons key front => exact ⟨elsewhere, by simp⟩

namespace Reading

/-- What is put in the place of the open table, by what stands there. -/
def placed (reading : Reading) (present : Option Item) : Option Item :=
  if reading.isArray then
    match present with
    | none => some (.tables [reading.current])
    | some (.tables nodes) => some (.tables (nodes ++ [reading.current]))
    | some _ => none
  else
    match present with
    | none => some (.table reading.current)
    | some (.table old) => if old.isImplicit then some (.table reading.current) else none
    | some _ => none

theorem exists_last (opened : reading.path ≠ []) :
    ∃ front last, reading.path = front ++ [last] := by
  obtain ⟨front, last, named⟩ := (List.eq_nil_or_concat reading.path).resolve_left opened
  exact ⟨front, last, named.trans List.concat_eq_append⟩

theorem close_root (top : reading.path = []) : reading.close = some reading.current := by
  rw [close, top]
  rfl

theorem close_eq (named : reading.path = front ++ [last]) :
    reading.close =
      reading.root.change false (fun parent => parent.update last reading.placed) front := by
  rw [close, named, List.getLast?_concat, List.dropLast_concat]
  dsimp only
  congr 1
  funext parent
  unfold Node.update placed
  cases reading.isArray <;> rcases parent.get? last with _ | value | old | nodes <;> try rfl
  cases implied : old.isImplicit <;> simp [implied]

/-- The name stands at the top of the document, or will once the open table is in its place. -/
def Mentions (reading : Reading) (name : String) : Prop :=
  if reading.path = [] then (reading.current.get? name).isSome = true
  else reading.path.head? = some name ∨ (reading.root.get? name).isSome = true

theorem Mentions.close (mentions : reading.Mentions name) (closed : reading.close = some root) :
    (root.get? name).isSome = true := by
  unfold Mentions at mentions
  split at mentions
  · next top =>
    rw [close_root top] at closed
    exact Option.some.inj closed ▸ mentions
  · next opened =>
    obtain ⟨front, last, named⟩ := exists_last opened
    rw [close_eq named] at closed
    rcases mentions with first | there
    · cases front with
      | nil =>
        rw [named] at first
        cases first
        exact Node.get?_update_self closed
      | cons key front =>
        rw [named] at first
        cases first
        rw [Node.change_cons] at closed
        exact Node.get?_update_self closed
    · exact Node.get?_change (fun done _ there => Node.get?_update done there) closed there

/-- Closing the document adds nothing else. -/
theorem mentions_of_close (closed : reading.close = some root)
    (there : (root.get? name).isSome = true) : reading.Mentions name := by
  unfold Mentions
  split
  · next top =>
    rw [close_root top] at closed
    exact Option.some.inj closed ▸ there
  · next opened =>
    obtain ⟨front, last, named⟩ := exists_last opened
    by_cases first : reading.path.head? = some name
    · exact .inl first
    · obtain ⟨elsewhere, other⟩ := elsewhere_front (named ▸ first)
      rw [close_eq named] at closed
      have same := Node.get?_change_other elsewhere
        (fun done top => Node.get?_update_other (other top) done) closed
      exact .inr (same ▸ there)

/-- What stands in the place that a path names. -/
def present? (root : Node) (front : List String) (last : String) : Option Item :=
  (parentOf? front root).bind fun parent => parent.get? last

/-- A header opens a table that is new, or one that was only implied so far. -/
inductive Opens (root : Node) : List String → Reading → Prop where
  | new {front last root'} (entered : root.change false some front = some root')
      (absent : present? root' front last = none) :
      Opens root (front ++ [last]) ⟨root', .empty, front ++ [last], false⟩
  | implied {front last root' root'' old} (entered : root.change false some front = some root')
      (present : present? root' front last = some (.table old)) (isImplicit : old.isImplicit = true)
      (dotted : old.dotted = false)
      (removed : root'.change false (fun parent => some (parent.remove last)) front = some root'') :
      Opens root (front ++ [last]) ⟨root'', .mk old.entries false false, front ++ [last], false⟩

theorem openTable_eq_some_iff :
    reading.openTable path = some reading' ↔
      ∃ root, reading.close = some root ∧ Opens root path reading' := by
  constructor
  · intro opened
    unfold openTable at opened
    obtain ⟨root, closed, opened⟩ := Option.bind_eq_some_iff.mp opened
    obtain ⟨last, named, opened⟩ := Option.bind_eq_some_iff.mp opened
    obtain ⟨root', entered, opened⟩ := Option.bind_eq_some_iff.mp opened
    obtain ⟨front, rfl⟩ := List.getLast?_eq_some_iff.mp named
    rw [List.dropLast_concat] at entered opened
    refine ⟨root, closed, ?_⟩
    dsimp only at opened
    split at opened
    · next absent =>
      cases opened
      exact .new entered absent
    · next old present =>
      split at opened
      · next free =>
        obtain ⟨root'', removed, opened⟩ := Option.bind_eq_some_iff.mp opened
        rw [Bool.and_eq_true, Bool.not_eq_true'] at free
        cases opened
        exact .implied entered present free.1 free.2 removed
      · cases opened
    · cases opened
  · rintro ⟨root, closed, opens⟩
    cases opens with
    | new entered absent =>
      rw [present?] at absent
      simp [openTable, closed, entered, absent]
    | implied entered present isImplicit dotted removed =>
      rw [present?] at present
      simp [openTable, closed, entered, present, isImplicit, dotted, removed]

/-- A header of an array opens its first table or a further one. -/
inductive OpensNext (root : Node) : List String → Reading → Prop where
  | intro {front last root'} (entered : root.change false some front = some root')
      (present : present? root' front last = none ∨
        ∃ nodes, present? root' front last = some (.tables nodes)) :
      OpensNext root (front ++ [last]) ⟨root', .empty, front ++ [last], true⟩

theorem openArrayTable_eq_some_iff :
    reading.openArrayTable path = some reading' ↔
      ∃ root, reading.close = some root ∧ OpensNext root path reading' := by
  constructor
  · intro opened
    unfold openArrayTable at opened
    obtain ⟨root, closed, opened⟩ := Option.bind_eq_some_iff.mp opened
    obtain ⟨last, named, opened⟩ := Option.bind_eq_some_iff.mp opened
    obtain ⟨root', entered, opened⟩ := Option.bind_eq_some_iff.mp opened
    obtain ⟨front, rfl⟩ := List.getLast?_eq_some_iff.mp named
    rw [List.dropLast_concat] at entered opened
    refine ⟨root, closed, ?_⟩
    split at opened
    · next absent =>
      cases opened
      exact .intro entered (.inl absent)
    · next nodes present =>
      cases opened
      exact .intro entered (.inr ⟨nodes, present⟩)
    · cases opened
  · rintro ⟨root, closed, ⟨entered, present⟩⟩
    unfold present? at present
    rcases present with absent | ⟨nodes, present⟩
    · simp [openArrayTable, closed, entered, absent]
    · simp [openArrayTable, closed, entered, present]

theorem mentions_of_get? (opened : reading.path ≠ [])
    (there : (reading.root.get? name).isSome = true) : reading.Mentions name := by
  rw [Mentions, if_neg opened]
  exact .inr there

theorem mentions_of_head (first : reading.path.head? = some name) : reading.Mentions name := by
  rw [Mentions, if_neg (by rintro top; rw [top] at first; cases first)]
  exact .inl first

theorem Opens.path_eq (opens : Opens root path reading') : reading'.path = path := by
  cases opens <;> rfl

theorem OpensNext.path_eq (opens : OpensNext root path reading') : reading'.path = path := by
  cases opens
  rfl

theorem Opens.mentions (opens : Opens root path reading') (there : (root.get? name).isSome = true) :
    reading'.Mentions name := by
  have keeps : ∀ {front root'}, root.change false some front = some root' →
      (root'.get? name).isSome = true :=
    fun entered => Node.get?_change (fun done _ there => Option.some.inj done ▸ there) entered there
  cases opens with
  | new entered absent => exact mentions_of_get? (by simp) (keeps entered)
  | @implied front last root' root'' old entered present isImplicit dotted removed =>
    by_cases own : front = [] ∧ last = name
    · obtain ⟨rfl, rfl⟩ := own
      exact mentions_of_head rfl
    · refine mentions_of_get? (by simp) (Node.get?_change ?_ removed (keeps entered))
      rintro node node' ⟨⟩ top there
      rwa [Node.get?_remove_other fun same => own ⟨top, same⟩]

theorem OpensNext.mentions (opens : OpensNext root path reading')
    (there : (root.get? name).isSome = true) : reading'.Mentions name := by
  obtain ⟨entered, _⟩ := opens
  exact mentions_of_get? (by simp)
    (Node.get?_change (fun done _ there => Option.some.inj done ▸ there) entered there)

theorem Mentions.follow {statement : Statement} (mentions : reading.Mentions name)
    (followed : reading.follow statement = some reading') : reading'.Mentions name := by
  cases statement with
  | table path =>
    obtain ⟨root, closed, opens⟩ := openTable_eq_some_iff.mp followed
    exact opens.mentions (mentions.close closed)
  | arrayTable path =>
    obtain ⟨root, closed, opens⟩ := openArrayTable_eq_some_iff.mp followed
    exact opens.mentions (mentions.close closed)
  | setting path value =>
    obtain ⟨last, named, followed⟩ := Option.bind_eq_some_iff.mp followed
    obtain ⟨current, added, followed⟩ := Option.bind_eq_some_iff.mp followed
    cases followed
    unfold Mentions at mentions ⊢
    split at mentions
    · next top =>
      rw [if_pos top]
      refine Node.get?_change ?_ added mentions
      intro node node' done _ there
      split at done
      · cases done
      · have updated : node.update last (fun _ => some (.value value)) = some node' := done
        exact Node.get?_update updated there
    · next opened =>
      rw [if_neg opened]
      exact mentions

theorem Mentions.lines {fuel : Nat} {cs : List Char} {final : Reading}
    (mentions : reading.Mentions name) (read : lines fuel reading cs = some final) :
    final.Mentions name := by
  induction fuel generalizing reading cs with
  | zero => cases read
  | succ fuel ih =>
    rcases lines_cases read with ⟨_, rfl⟩ | ⟨content, rest, reading', _, passed, read⟩
    · exact mentions
    · refine ih ?_ read
      cases content with
      | none => exact Option.some.inj passed ▸ mentions
      | some statement => exact mentions.follow passed

end Reading

/-- The second table has the entries of the first, with one more among them. -/
def Inserted (name : String) (item : Item) (node node' : Node) : Prop :=
  ∃ front back, node.entries = front ++ back ∧ node'.entries = front ++ (name, item) :: back

namespace Inserted

theorem get? (inserted : Inserted name item node node') (other : key ≠ name) :
    node'.get? key = node.get? key := by
  obtain ⟨front, back, entries, entries'⟩ := inserted
  rw [Node.get?, Node.get?, entries, entries', List.lookup_append, List.lookup_append, lookup_entry,
    if_neg other]

theorem put (inserted : Inserted name item node node') (other : key ≠ name) (value : Item) :
    Inserted name item (node.put key value) (node'.put key value) := by
  have same := inserted.get? other
  obtain ⟨front, back, entries, entries'⟩ := inserted
  rw [Node.put, Node.put, same]
  split
  · have kept : ((name, item).1 == key) = false := beq_eq_false_iff_ne.mpr other.symm
    refine ⟨front.map fun entry => if entry.1 == key then (key, value) else entry,
      back.map fun entry => if entry.1 == key then (key, value) else entry, ?_, ?_⟩
    · rw [Node.entries, entries, List.map_append]
    · rw [Node.entries, entries', List.map_append, List.map_cons, kept]
      rfl
  · refine ⟨front, back ++ [(key, value)], ?_, ?_⟩
    · rw [Node.entries, entries, List.append_assoc]
    · rw [Node.entries, entries', List.append_assoc, List.cons_append]

theorem remove (inserted : Inserted name item node node') (other : key ≠ name) :
    Inserted name item (node.remove key) (node'.remove key) := by
  obtain ⟨front, back, entries, entries'⟩ := inserted
  refine ⟨front.filter fun entry => entry.1 != key, back.filter fun entry => entry.1 != key, ?_, ?_⟩
  · rw [Node.remove, Node.entries, entries, List.filter_append]
  · have kept : ((name, item).1 != key) = true := bne_iff_ne.mpr other.symm
    rw [Node.remove, Node.entries, entries', List.filter_append, List.filter_cons, if_pos kept]

/-- A new entry stands at the end. -/
theorem put_self (absent : node.get? name = none) :
    Inserted name item node (node.put name item) := by
  refine ⟨node.entries, [], (List.append_nil _).symm, ?_⟩
  rw [Node.put, absent]
  rfl

end Inserted

/-- A change goes on as before if there is one more entry at the top. -/
def Carries (name : String) (item : Item) (final : Node → Option Node) : Prop :=
  ∀ {node node' changed : Node}, Inserted name item node node' → final node = some changed →
    ∃ changed', final node' = some changed' ∧ Inserted name item changed changed'

theorem carries_update {next : Option Item → Option Item} (other : key ≠ name) :
    Carries name item fun node => node.update key next := by
  intro node node' changed inserted updated
  obtain ⟨value, given, rfl⟩ := Option.map_eq_some_iff.mp updated
  refine ⟨node'.put key value, ?_, inserted.put other value⟩
  change (next (node'.get? key)).map (node'.put key) = _
  rw [inserted.get? other, given]
  rfl

theorem carries_remove (other : key ≠ name) :
    Carries name item fun node => some (node.remove key) := by
  rintro node node' _ inserted ⟨⟩
  exact ⟨_, rfl, inserted.remove other⟩

theorem carries_some : Carries name item some := by
  rintro node node' _ inserted ⟨⟩
  exact ⟨node', rfl, inserted⟩

theorem carries_change (elsewhere : path.head? ≠ some name)
    (ending : path = [] → Carries name item final) :
    Carries name item (Node.change dottedKey final path) := by
  cases path with
  | nil => exact ending rfl
  | cons key path =>
    intro node node' changed inserted done
    have other : key ≠ name := by rintro rfl; exact elsewhere rfl
    rw [Node.change_cons] at done ⊢
    exact carries_update other inserted done

theorem present?_inserted (elsewhere : (front ++ [last]).head? ≠ some name)
    (inserted : Inserted name item node node') :
    Reading.present? node' front last = Reading.present? node front last := by
  cases front with
  | nil => exact inserted.get? ((elsewhere_front elsewhere).2 rfl)
  | cons key front =>
    have other : key ≠ name := by rintro rfl; exact elsewhere rfl
    rw [Reading.present?, Reading.present?, parentOf?, parentOf?, inserted.get? other]

/-- The second reading has one more entry at the top, and the same table of another name open. -/
structure Beside (name : String) (item : Item) (reading reading' : Reading) : Prop where
  root : Inserted name item reading.root reading'.root
  current : reading'.current = reading.current
  path : reading'.path = reading.path
  isArray : reading'.isArray = reading.isArray
  opened : reading.path ≠ []
  elsewhere : reading.path.head? ≠ some name

/-- If the first document can be closed, then so can the second, which has one more entry. -/
def ClosesBeside (name : String) (item : Item) (reading reading' : Reading) : Prop :=
  ∀ {root}, reading.close = some root →
    ∃ root', reading'.close = some root' ∧ Inserted name item root root'

theorem Beside.closes (beside : Beside name item reading reading') :
    ClosesBeside name item reading reading' := by
  intro root closed
  obtain ⟨front, last, named⟩ := Reading.exists_last beside.opened
  have placed : reading'.placed = reading.placed := by
    funext present
    unfold Reading.placed
    rw [beside.current, beside.isArray]
  obtain ⟨elsewhere, other⟩ := elsewhere_front (named ▸ beside.elsewhere)
  rw [Reading.close_eq named] at closed
  rw [Reading.close_eq (beside.path.trans named), placed]
  exact carries_change elsewhere (fun top => carries_update (other top)) beside.root closed

variable {root' : Node}

theorem Reading.Opens.beside (opens : Opens root path reading) (elsewhere : path.head? ≠ some name)
    (inserted : Inserted name item root root') :
    ∃ reading', Opens root' path reading' ∧ Beside name item reading reading' := by
  cases opens with
  | new entered absent =>
    obtain ⟨onward, other⟩ := elsewhere_front elsewhere
    obtain ⟨root₁, entered, inserted⟩ :=
      carries_change onward (fun _ => carries_some) inserted entered
    rw [← present?_inserted elsewhere inserted] at absent
    exact ⟨_, .new entered absent, inserted, rfl, rfl, rfl, by simp, elsewhere⟩
  | implied entered present isImplicit dotted removed =>
    obtain ⟨onward, other⟩ := elsewhere_front elsewhere
    obtain ⟨root₁, entered, inserted⟩ :=
      carries_change onward (fun _ => carries_some) inserted entered
    rw [← present?_inserted elsewhere inserted] at present
    obtain ⟨root₂, removed, inserted⟩ :=
      carries_change onward (fun top => carries_remove (other top)) inserted removed
    exact ⟨_, .implied entered present isImplicit dotted removed, inserted, rfl, rfl, rfl, by simp,
      elsewhere⟩

theorem Reading.OpensNext.beside (opens : OpensNext root path reading)
    (elsewhere : path.head? ≠ some name) (inserted : Inserted name item root root') :
    ∃ reading', OpensNext root' path reading' ∧ Beside name item reading reading' := by
  obtain ⟨entered, present⟩ := opens
  obtain ⟨onward, other⟩ := elsewhere_front elsewhere
  obtain ⟨root₁, entered, inserted⟩ :=
    carries_change onward (fun _ => carries_some) inserted entered
  rw [← present?_inserted elsewhere inserted] at present
  exact ⟨_, .intro entered present, inserted, rfl, rfl, rfl, by simp, elsewhere⟩

/-- A statement that is a header. -/
def Statement.IsHeader : Statement → Prop
  | .table _ => True
  | .arrayTable _ => True
  | .setting _ _ => False

variable {statement : Statement} {final final' : Reading}

/-- A header depends on the closed document only. -/
theorem ClosesBeside.follow (closes : ClosesBeside name item reading reading')
    (header : statement.IsHeader) (followed : reading.follow statement = some final)
    (untouched : ¬final.Mentions name) :
    ∃ final', reading'.follow statement = some final' ∧ Beside name item final final' := by
  cases statement with
  | table path =>
    obtain ⟨root, closed, opens⟩ := Reading.openTable_eq_some_iff.mp followed
    obtain ⟨root', closed, inserted⟩ := closes closed
    have elsewhere : path.head? ≠ some name := fun first =>
      untouched (Reading.mentions_of_head (opens.path_eq ▸ first))
    obtain ⟨final', opens, beside⟩ := opens.beside elsewhere inserted
    exact ⟨final', Reading.openTable_eq_some_iff.mpr ⟨root', closed, opens⟩, beside⟩
  | arrayTable path =>
    obtain ⟨root, closed, opens⟩ := Reading.openArrayTable_eq_some_iff.mp followed
    obtain ⟨root', closed, inserted⟩ := closes closed
    have elsewhere : path.head? ≠ some name := fun first =>
      untouched (Reading.mentions_of_head (opens.path_eq ▸ first))
    obtain ⟨final', opens, beside⟩ := opens.beside elsewhere inserted
    exact ⟨final', Reading.openArrayTable_eq_some_iff.mpr ⟨root', closed, opens⟩, beside⟩
  | setting path value => exact header.elim

theorem Beside.follow (beside : Beside name item reading reading')
    (followed : reading.follow statement = some final) (untouched : ¬final.Mentions name) :
    ∃ final', reading'.follow statement = some final' ∧ Beside name item final final' := by
  by_cases header : statement.IsHeader
  · exact ClosesBeside.follow beside.closes header followed untouched
  · cases statement with
    | table path => exact absurd trivial header
    | arrayTable path => exact absurd trivial header
    | setting path value =>
      obtain ⟨last, named, followed⟩ := Option.bind_eq_some_iff.mp followed
      obtain ⟨current, added, followed⟩ := Option.bind_eq_some_iff.mp followed
      cases followed
      refine ⟨{ reading' with current := current }, ?_, beside.root, rfl, beside.path,
        beside.isArray, beside.opened, beside.elsewhere⟩
      rw [Reading.follow, named, beside.current, Option.bind_eq_bind, Option.bind_some, added]
      rfl

theorem Beside.lines {fuel fuel' : Nat} {cs : List Char}
    (beside : Beside name item reading reading') (enough : fuel ≤ fuel')
    (read : lines fuel reading cs = some final) (untouched : ¬final.Mentions name) :
    ∃ final', lines fuel' reading' cs = some final' ∧ Beside name item final final' := by
  induction fuel generalizing fuel' reading reading' cs with
  | zero => cases read
  | succ fuel ih =>
    obtain ⟨fuel', rfl⟩ : ∃ n, fuel' = n + 1 := ⟨fuel' - 1, by omega⟩
    rcases lines_cases read with ⟨blank, rfl⟩ | ⟨content, rest, between, reads, passed, read⟩
    · refine ⟨reading', ?_, beside⟩
      rw [Toml.lines, blank]
    · cases content with
      | none =>
        cases passed
        rw [lines_step reads rfl]
        exact ih beside (by omega) read
      | some statement =>
        obtain ⟨between', passed, beside⟩ := beside.follow passed fun mentions =>
          untouched (mentions.lines read)
        rw [lines_step reads passed]
        exact ih beside (by omega) read

end Interop.Toml
