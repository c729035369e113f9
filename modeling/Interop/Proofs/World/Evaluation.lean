import Interop.Eval.Engine
import Interop.Proofs.World.Tasks

/-!
Evaluation, taken apart once. Native and script code are evaluated by steps that touch the world:
scopes and handles, types and arrays, fields and elements, calls. Where each of these steps leads
from a good world to a good one in a relation of worlds, and reads and answers fit values only, so
does the evaluation of all code, by induction on the code.

Native code may write a field of its receiver without a check. This step is asked for only where
the code has such a write.
-/
namespace Interop

variable {I : World → Prop} {R : World → World → Prop} {V : World → Value → Prop} {w w' : World}

/-- Receiver and arguments are fit values. -/
structure Frame.Fits (V : World → Value → Prop) (frame : Frame) (w : World) : Prop where
  receiver : ∀ {ref}, frame.receiver = some ref → V w (.object ref)
  args : ∀ v ∈ frame.args, V w v

theorem Frame.Fits.this {frame : Frame} {ref : ObjectRef} (fits : frame.Fits V w)
    (found : frame.this = .ok ref) : V w (.object ref) := by
  unfold Frame.this at found
  split at found
  · next receiver =>
    cases found
    exact fits.receiver receiver
  · cases found

theorem Frame.Fits.argument {frame : Frame} {index : Nat} {v : Value} (fits : frame.Fits V w)
    (found : frame.argument index = .ok v) : V w v := by
  unfold Frame.argument at found
  split at found
  · next there =>
    cases found
    exact fits.args v (List.mem_of_getElem? there)
  · cases found

mutual

/-- Whether native code writes a field by itself. -/
def Code.writes : Code → Bool
  | .setField _ _ => true
  | .sequence items => Code.writesAny items
  | .callThis _ args => Code.writesAny args
  | .callOn target _ args => target.writes || Code.writesAny args
  | .add left right => left.writes || right.writes
  | .choose condition yes no => condition.writes || yes.writes || no.writes
  | .length array => array.writes
  | .element array _ => array.writes
  | .storeElement array _ value => array.writes || value.writes
  | .newArray _ elements => Code.writesAny elements
  | .newObject _ args => Code.writesAny args
  | .log value => value.writes
  | _ => false

def Code.writesAny : List Code → Bool
  | [] => false
  | first :: rest => first.writes || Code.writesAny rest

end

namespace Eval

/-- A field is written by native code itself. -/
def Writes (I : World → Prop) (R : World → World → Prop) (V : World → Value → Prop) : Prop :=
  ∀ {w ref name v heap}, I w → V w v → w.heap.setField? ref name v = some heap →
    I { w with heap := heap } ∧ R w { w with heap := heap }

/-- All other steps of evaluation. -/
structure Steps (I : World → Prop) (R : World → World → Prop) (V : World → Value → Prop)
    (run : Runner) : Prop where
  -- Values stay fit, and those that are read are fit.
  lasting : ∀ {w w' v}, R w w' → V w v → V w' v
  plain : ∀ {w v}, v.object? = none → V w v
  field : ∀ {w ref name v}, I w → w.heap.field? ref name = some v → V w v
  element : ∀ {w ref index v}, I w → w.heap.element? ref index = some v → V w v
  nativeVariable : ∀ {w name v}, I w → w.nativeVariables.lookup name = some v → V w v
  target : ∀ {w id h}, I w → w.handle? id = some h → V w (.object h.target)
  openScope : ∀ {w}, I w → I { w with held := [] } ∧ R w { w with held := [] }
  endScope : ∀ {w} outer result, I w →
    I (w.endScope outer result) ∧ R w (w.endScope outer result)
  hold : ∀ {w} value, I w → I (w.hold value) ∧ R w (w.hold value)
  setVariable : ∀ {w} name value, I w →
    I (w.setVariable name value) ∧ R w (w.setVariable name value)
  lookupType : ∀ {ε : Type} {w} name, I w →
    (Task.lookupType name : Task ε _).Meets I R (fun _ _ => True) w
  arrayOf : ∀ {w} component, I w →
    (Task.onRegistry (Registry.arrayOf component)).Meets I R (fun _ _ => True) w
  newArray : ∀ {w elements} component, I w → (∀ v ∈ elements, V w v) →
    (Marshal.newArray component elements).Meets I R (fun w' ref => V w' (.object ref)) w
  addFunction : ∀ {ε : Type} {w} body, I w →
    (Task.addFunction body : Task ε _).Meets I R (fun _ _ => True) w
  logEntry : ∀ {ε : Type} {w} entry, I w →
    (Task.logEntry entry : Task ε _).Meets I R (fun _ _ => True) w
  -- What native code does with objects.
  storeElement : ∀ {w array value} index, I w → V w (.object array) → V w value →
    (Invoke.storeElement array index value).Meets I R (fun _ _ => True) w
  invokeVirtual : ∀ {w receiver args} name, I w → V w (.object receiver) → (∀ v ∈ args, V w v) →
    (Invoke.invokeVirtual run receiver name args).Meets I R V w
  construct : ∀ {w c cls args}, I w → c ∈ w.registry.constructors cls → (∀ v ∈ args, V w v) →
    (Invoke.construct run c args none).Meets I R (fun w' ref => V w' (.object ref)) w
  -- What script code does through handles.
  call : ∀ {w} proxy site, I w → (Proxy.call run proxy site).Meets I R (fun _ _ => True) w
  getField : ∀ {w} proxy name, I w → (Proxy.getField proxy name).Meets I R (fun _ _ => True) w
  setField : ∀ {w} proxy name value, I w →
    (Proxy.setField proxy name value).Meets I R (fun _ _ => True) w
  superView : ∀ {ε : Type} {w} id, I w →
    (Task.superView id : Task ε _).Meets I R (fun _ _ => True) w
  newInstance : ∀ {w} handle args, I w →
    (ClassHandle.newInstance run handle args).Meets I R (fun _ _ => True) w
  setOverrides : ∀ {w} id overrides, I w →
    (HandleId.setOverrides id overrides).Meets I R (fun _ _ => True) w

theorem object?_sum {a b v : Value} (sum : sum? a b = some v) : v.object? = none := by
  unfold sum? at sum
  split at sum
  · cases sum
    rfl
  · split at sum
    · cases sum
      rfl
    · split at sum
      · cases sum
        rfl
      · cases sum

theorem eq_of_requireObject {v : Value} {ref : ObjectRef} (required : requireObject v = .ok ref) :
    v = .object ref := by
  unfold requireObject at required
  split at required
  · cases required
    rfl
  · cases required

namespace Steps

variable {run : Runner}

theorem lasting_all (steps : Steps I R V run) {values : List Value} (related : R w w')
    (fits : ∀ v ∈ values, V w v) : ∀ v ∈ values, V w' v :=
  fun v member => steps.lasting related (fits v member)

theorem lasting_frame (steps : Steps I R V run) {frame : Frame} (related : R w w')
    (fits : frame.Fits V w) : frame.Fits V w' :=
  ⟨fun receiver => steps.lasting related (fits.receiver receiver),
    steps.lasting_all related fits.args⟩

variable [IsPreorder World R]

theorem meets_arrayOfDimensions (steps : Steps I R V run) (good : I w) (dimensions : Nat)
    (id : TypeId) : (arrayOfDimensions dimensions id).Meets I R (fun _ _ => True) w := by
  induction dimensions generalizing id w with
  | zero => exact .pure good trivial
  | succ n ih =>
    refine (steps.arrayOf id good).bind ?_
    intro array w₁ good₁ _ _
    exact ih good₁ array

theorem meets_typeRef? (steps : Steps I R V run) {ε : Type} (good : I w) (ref : TypeRef) :
    (typeRef? ref : Task ε (Option TypeId)).Meets I R (fun _ _ => True) w := by
  unfold typeRef?
  split
  · dsimp only
    refine .get ?_
    split
    · exact .pure good trivial
    · refine (steps.meets_arrayOfDimensions good _ _).outcome.bind ?_
      intro result w₁ good₁ _ _
      split <;> exact .pure good₁ trivial
  · exact steps.lookupType ref.text good

theorem meets_typeRef (steps : Steps I R V run) (good : I w) (ref : TypeRef) :
    (typeRef ref).Meets I R (fun _ _ => True) w := by
  refine (steps.meets_typeRef? good ref).bind ?_
  intro found w₁ good₁ _ _
  split
  · exact .pure good₁ trivial
  · exact .throw good₁ _

theorem meets_requireType (steps : Steps I R V run) (good : I w) (ref : TypeRef) :
    (requireType ref).Meets I R (fun _ _ => True) w := by
  refine (steps.meets_typeRef? good ref).bind ?_
  intro found w₁ good₁ _ _
  split
  · exact .pure good₁ trivial
  · exact .throw good₁ _

theorem meets_readVariable (steps : Steps I R V run) (good : I w) (name : String) :
    (readVariable name).Meets I R (fun _ _ => True) w := by
  refine .get ?_
  split
  · exact .modified (steps.hold _ good) fun good₁ _ => .pure good₁ trivial
  · exact .throw good _

theorem meets_instanceVariable (steps : Steps I R V run) (good : I w) (name : String) :
    (instanceVariable name).Meets I R (fun _ _ => True) w := by
  refine (steps.meets_readVariable good name).bind ?_
  intro value w₁ good₁ _ _
  split
  · exact .pure good₁ trivial
  · exact .throw good₁ _

/-- The values of a scope stay fit when it ends. -/
theorem meets_closed (steps : Steps I R V run) {ε : Type} {task : Task ε Value} (good : I w)
    (meets : ∀ {w'}, I w' → task.Meets I R V w') : (Task.closed task).Meets I R V w := by
  obtain ⟨opened, related⟩ := steps.openScope good
  refine .inScope ⟨opened, related⟩ (fun result => steps.endScope _ result) ?_ (meets opened)
  exact fun result after fits => steps.lasting (steps.endScope _ result after).2 fits

theorem meets_scopedValue (steps : Steps I R V run) {ε : Type} {task : Task ε ScriptValue}
    (good : I w) (meets : ∀ {w'}, I w' → task.Meets I R (fun _ _ => True) w') :
    task.scopedValue.Meets I R (fun _ _ => True) w := by
  obtain ⟨opened, related⟩ := steps.openScope good
  exact .inScope ⟨opened, related⟩ (fun result => steps.endScope _ result) (fun _ _ _ => trivial)
    (meets opened)

mutual

theorem meets_literal (steps : Steps I R V run) : ∀ (l : Literal) {w : World}, I w →
    (∀ v ∈ l.values, V w v) → (literal l).Meets I R V w
  | .value v, _, good, fits => .pure good (fits v (List.mem_singleton_self v))
  | .array component elements, _, good, fits => by
    unfold literal
    refine (steps.meets_typeRef good component).bind ?_
    intro c w₁ good₁ related₁ _
    refine (steps.meets_literals elements good₁ (steps.lasting_all related₁ fits)).bind ?_
    intro values w₂ good₂ _ all
    refine ((steps.newArray c good₂ all).mapError _).bind ?_
    intro ref w₃ good₃ _ made
    exact .pure good₃ made
  | .var name, _, good, _ => by
    unfold literal
    refine .get ?_
    split
    · next found => exact .pure good (steps.nativeVariable good found)
    · exact .throw good _
  | .target name, _, good, _ => by
    unfold literal
    refine steps.meets_closed good fun good₀ => ?_
    refine (steps.meets_instanceVariable good₀ name).bind ?_
    intro id w₁ good₁ _ _
    refine .get ?_
    split
    · next found => exact .pure good₁ (steps.target good₁ found)
    · exact .throw good₁ _
  | .malformed _, _, good, _ => .throw good _

theorem meets_literals (steps : Steps I R V run) : ∀ (ls : List Literal) {w : World}, I w →
    (∀ v ∈ Literal.valuesOfAll ls, V w v) →
      (literals ls).Meets I R (fun w' vs => ∀ v ∈ vs, V w' v) w
  | [], _, good, _ => .pure good nofun
  | first :: rest, _, good, fits => by
    unfold literals
    obtain ⟨fitsFirst, fitsRest⟩ := List.forall_mem_append.mp fits
    refine (steps.meets_literal first good fitsFirst).bind ?_
    intro value w₁ good₁ related₁ one
    refine (steps.meets_literals rest good₁ (steps.lasting_all related₁ fitsRest)).bind ?_
    intro values w₂ good₂ related₂ all
    exact .pure good₂ (List.forall_mem_cons.mpr ⟨steps.lasting related₂ one, all⟩)

end

mutual

theorem meets_scriptLiteral (steps : Steps I R V run) : ∀ (l : ScriptLiteral) {w : World}, I w →
    (scriptLiteral l).Meets I R (fun _ _ => True) w
  | .value _, _, good => .pure good trivial
  | .array items, _, good => by
    unfold scriptLiteral
    refine (steps.meets_scriptLiterals items good).bind ?_
    intro values w₁ good₁ _ _
    exact .pure good₁ trivial
  | .dict entries, _, good => by
    unfold scriptLiteral
    refine (steps.meets_scriptEntries entries good).bind ?_
    intro values w₁ good₁ _ _
    exact .pure good₁ trivial
  | .function body, _, good => by
    unfold scriptLiteral
    refine (steps.addFunction body good).bind ?_
    intro id w₁ good₁ _ _
    exact .pure good₁ trivial
  | .var name, _, good => by
    unfold scriptLiteral
    exact steps.meets_readVariable good name
  | .malformed _, _, good => .throw good _

theorem meets_scriptLiterals (steps : Steps I R V run) : ∀ (ls : List ScriptLiteral) {w : World},
    I w → (scriptLiterals ls).Meets I R (fun _ _ => True) w
  | [], _, good => .pure good trivial
  | first :: rest, _, good => by
    unfold scriptLiterals
    refine (steps.meets_scriptLiteral first good).bind ?_
    intro value w₁ good₁ _ _
    refine (steps.meets_scriptLiterals rest good₁).bind ?_
    intro values w₂ good₂ _ _
    exact .pure good₂ trivial

theorem meets_scriptEntries (steps : Steps I R V run) :
    ∀ (entries : List (String × ScriptLiteral)) {w : World}, I w →
      (scriptEntries entries).Meets I R (fun _ _ => True) w
  | [], _, good => .pure good trivial
  | (_, first) :: rest, _, good => by
    unfold scriptEntries
    refine (steps.meets_scriptLiteral first good).bind ?_
    intro value w₁ good₁ _ _
    refine (steps.meets_scriptEntries rest good₁).bind ?_
    intro values w₂ good₂ _ _
    exact .pure good₂ trivial

end

theorem meets_newObject (steps : Steps I R V run) {args : List Value} (good : I w) (cls : TypeId)
    (fits : ∀ v ∈ args, V w v) : (newObject run cls args).Meets I R V w := by
  refine .get ?_
  split
  · next found =>
    refine (steps.construct good (List.mem_of_find?_eq_some found) fits).bind ?_
    intro ref w₁ good₁ _ made
    exact .pure good₁ made
  · exact .throw good _

mutual

theorem meets_code (steps : Steps I R V run) {frame : Frame} : ∀ (c : Code) {w : World},
    (c.writes = true → Writes I R V) → I w → (∀ v ∈ c.values, V w v) → frame.Fits V w →
      (code run frame c).Meets I R V w
  | .literal l, _, _, good, fits, _ => by
    unfold code
    exact (steps.meets_literal l good fits).mapError _
  | .argument index, _, _, good, _, frameFits =>
    .result good fun _ found => frameFits.argument found
  | .argumentCount, _, _, good, _, _ => .pure good (steps.plain rfl)
  | .this, _, _, good, _, frameFits =>
    .ofExcept good fun _ found => .pure good (frameFits.this found)
  | .getField name, _, _, good, _, _ => by
    unfold code
    refine .ofExcept good fun this _ => .get ?_
    split
    · next found => exact .pure good (steps.field good found)
    · exact .throw good _
  | .setField name value, _, writes, good, fits, frameFits => by
    unfold code
    have write : Writes I R V := writes rfl
    refine (steps.meets_code value (fun _ => write) good fits frameFits).bind ?_
    intro v w₁ good₁ _ fitsValue
    refine .ofExcept good₁ fun this _ => .get ?_
    split
    · next written =>
      exact .set (write good₁ fitsValue written) fun good₂ _ => .pure good₂ (steps.plain rfl)
    · exact .throw good₁ _
  | .sequence items, _, writes, good, fits, frameFits => by
    unfold code
    refine (steps.meets_codes items writes good fits frameFits).bind ?_
    intro values w₁ good₁ _ all
    refine .pure good₁ ?_
    cases last : values.getLast? with
    | none => exact steps.plain rfl
    | some v => exact all v (List.mem_of_getLast? last)
  | .callThis method args, _, writes, good, fits, frameFits => by
    unfold code
    refine (steps.meets_codes args writes good fits frameFits).bind ?_
    intro values w₁ good₁ related₁ all
    refine .ofExcept good₁ fun this found => ?_
    exact steps.invokeVirtual method good₁ ((steps.lasting_frame related₁ frameFits).this found) all
  | .callOn target method args, _, writes, good, fits, frameFits => by
    unfold code
    obtain ⟨fitsTarget, fitsArgs⟩ := List.forall_mem_append.mp fits
    refine (steps.meets_code target (fun own => writes (by simp [Code.writes, own])) good fitsTarget
      frameFits).bind ?_
    intro object w₁ good₁ related₁ fitsObject
    refine (steps.meets_codes args (fun own => writes (by simp [Code.writes, own])) good₁
      (steps.lasting_all related₁ fitsArgs) (steps.lasting_frame related₁ frameFits)).bind ?_
    intro values w₂ good₂ related₂ all
    split
    · exact steps.invokeVirtual method good₂ (steps.lasting related₂ fitsObject) all
    · exact .throw good₂ _
  | .raise _, _, _, good, _, _ => .throw good _
  | .deny _, _, _, good, _, _ => .throw good _
  | .add left right, _, writes, good, fits, frameFits => by
    unfold code
    obtain ⟨fitsLeft, fitsRight⟩ := List.forall_mem_append.mp fits
    refine (steps.meets_code left (fun own => writes (by simp [Code.writes, own])) good fitsLeft
      frameFits).bind ?_
    intro a w₁ good₁ related₁ _
    refine (steps.meets_code right (fun own => writes (by simp [Code.writes, own])) good₁
      (steps.lasting_all related₁ fitsRight) (steps.lasting_frame related₁ frameFits)).bind ?_
    intro b w₂ good₂ _ _
    split
    · next sum => exact .pure good₂ (steps.plain (object?_sum sum))
    · exact .throw good₂ _
  | .choose condition yes no, _, writes, good, fits, frameFits => by
    unfold code
    obtain ⟨fitsFront, fitsNo⟩ := List.forall_mem_append.mp fits
    obtain ⟨fitsCondition, fitsYes⟩ := List.forall_mem_append.mp fitsFront
    refine (steps.meets_code condition (fun own => writes (by simp [Code.writes, own])) good
      fitsCondition frameFits).bind ?_
    intro value w₁ good₁ related₁ _
    have frameFits₁ := steps.lasting_frame related₁ frameFits
    split
    · exact steps.meets_code yes (fun own => writes (by simp [Code.writes, own])) good₁
        (steps.lasting_all related₁ fitsYes) frameFits₁
    · exact steps.meets_code no (fun own => writes (by simp [Code.writes, own])) good₁
        (steps.lasting_all related₁ fitsNo) frameFits₁
  | .length array, _, writes, good, fits, frameFits => by
    unfold code
    refine (steps.meets_code array writes good fits frameFits).bind ?_
    intro value w₁ good₁ _ _
    exact .ofExcept good₁ fun object _ => .get (.pure good₁ (steps.plain rfl))
  | .element array index, _, writes, good, fits, frameFits => by
    unfold code
    refine (steps.meets_code array writes good fits frameFits).bind ?_
    intro value w₁ good₁ _ _
    refine .ofExcept good₁ fun object _ => .get ?_
    split
    · next found => exact .pure good₁ (steps.element good₁ found)
    · exact .throw good₁ _
  | .storeElement array index value, _, writes, good, fits, frameFits => by
    unfold code
    obtain ⟨fitsArray, fitsValue⟩ := List.forall_mem_append.mp fits
    refine (steps.meets_code array (fun own => writes (by simp [Code.writes, own])) good fitsArray
      frameFits).bind ?_
    intro target w₁ good₁ related₁ fitsTarget
    refine .ofExcept good₁ fun object required => ?_
    rw [eq_of_requireObject required] at fitsTarget
    refine (steps.meets_code value (fun own => writes (by simp [Code.writes, own])) good₁
      (steps.lasting_all related₁ fitsValue) (steps.lasting_frame related₁ frameFits)).bind ?_
    intro v w₂ good₂ related₂ fitsStored
    refine (steps.storeElement index good₂ (steps.lasting related₂ fitsTarget) fitsStored).bind ?_
    intro _ w₃ good₃ _ _
    exact .pure good₃ (steps.plain rfl)
  | .newArray component elements, _, writes, good, fits, frameFits => by
    unfold code
    refine (steps.meets_requireType good component).bind ?_
    intro c w₁ good₁ related₁ _
    refine (steps.meets_codes elements writes good₁ (steps.lasting_all related₁ fits)
      (steps.lasting_frame related₁ frameFits)).bind ?_
    intro values w₂ good₂ _ all
    refine (steps.newArray c good₂ all).bind ?_
    intro ref w₃ good₃ _ made
    exact .pure good₃ made
  | .newObject cls args, _, writes, good, fits, frameFits => by
    unfold code
    refine (steps.meets_requireType good cls).bind ?_
    intro c w₁ good₁ related₁ _
    refine (steps.meets_codes args writes good₁ (steps.lasting_all related₁ fits)
      (steps.lasting_frame related₁ frameFits)).bind ?_
    intro values w₂ good₂ _ all
    exact steps.meets_newObject good₂ c all
  | .log value, _, writes, good, fits, frameFits => by
    unfold code
    refine (steps.meets_code value writes good fits frameFits).bind ?_
    intro v w₁ good₁ _ _
    refine .get ((steps.logEntry _ good₁).bind ?_)
    intro _ w₂ good₂ _ _
    exact .pure good₂ (steps.plain rfl)
  | .invalid, _, _, good, _, _ => .throw good _

theorem meets_codes (steps : Steps I R V run) {frame : Frame} : ∀ (cs : List Code) {w : World},
    (Code.writesAny cs = true → Writes I R V) → I w → (∀ v ∈ Code.valuesOfAll cs, V w v) →
      frame.Fits V w → (codes run frame cs).Meets I R (fun w' vs => ∀ v ∈ vs, V w' v) w
  | [], _, _, good, _, _ => .pure good nofun
  | first :: rest, _, writes, good, fits, frameFits => by
    unfold codes
    obtain ⟨fitsFirst, fitsRest⟩ := List.forall_mem_append.mp fits
    refine (steps.meets_code first (fun own => writes (by simp [Code.writesAny, own])) good
      fitsFirst frameFits).bind ?_
    intro value w₁ good₁ related₁ one
    refine (steps.meets_codes rest (fun own => writes (by simp [Code.writesAny, own])) good₁
      (steps.lasting_all related₁ fitsRest) (steps.lasting_frame related₁ frameFits)).bind ?_
    intro values w₂ good₂ related₂ all
    exact .pure good₂ (List.forall_mem_cons.mpr ⟨steps.lasting related₂ one, all⟩)

end

mutual

theorem meets_script (steps : Steps I R V run) {frame : ScriptFrame} :
    ∀ (c : ScriptCode) {w : World}, I w → (script run frame c).Meets I R (fun _ _ => True) w
  | .literal l, _, good => by
    unfold script
    refine steps.meets_scopedValue good fun good₀ => ?_
    exact (steps.meets_scriptLiteral l good₀).mapError _
  | .this, _, good => by
    unfold script
    exact steps.meets_scopedValue good fun good₀ => .pure good₀ trivial
  | .argument index, _, good => by
    unfold script
    exact steps.meets_scopedValue good fun good₀ => .pure good₀ trivial
  | .arguments, _, good => by
    unfold script
    exact steps.meets_scopedValue good fun good₀ => .pure good₀ trivial
  | .argumentCount, _, good => .pure good trivial
  | .sequence items, _, good => by
    unfold script
    refine steps.meets_scopedValue good fun good₀ => ?_
    refine (steps.meets_scripts items good₀).bind ?_
    intro values w₁ good₁ _ _
    exact .pure good₁ trivial
  | .call target method args onInstance, _, good => by
    unfold script
    refine steps.meets_scopedValue good fun good₀ => ?_
    refine (steps.meets_script target good₀).bind ?_
    intro value w₁ good₁ _ _
    refine (steps.meets_scripts args good₁).bind ?_
    intro values w₂ good₂ _ _
    exact .ofExcept good₂ fun proxy _ => steps.call proxy _ good₂
  | .getField target name, _, good => by
    unfold script
    refine steps.meets_scopedValue good fun good₀ => ?_
    refine (steps.meets_script target good₀).bind ?_
    intro value w₁ good₁ _ _
    exact .ofExcept good₁ fun proxy _ => steps.getField proxy name good₁
  | .setField target name value, _, good => by
    unfold script
    refine steps.meets_scopedValue good fun good₀ => ?_
    refine (steps.meets_script target good₀).bind ?_
    intro owner w₁ good₁ _ _
    refine (steps.meets_script value good₁).bind ?_
    intro stored w₂ good₂ _ _
    refine .ofExcept good₂ fun proxy _ => ?_
    refine (steps.setField proxy name stored good₂).bind ?_
    intro _ w₃ good₃ _ _
    exact .pure good₃ trivial
  | .superView target, _, good => by
    unfold script
    refine steps.meets_scopedValue good fun good₀ => ?_
    refine (steps.meets_script target good₀).bind ?_
    intro value w₁ good₁ _ _
    refine .ofExcept good₁ fun id _ => ?_
    refine (steps.superView id good₁).bind ?_
    intro view w₂ good₂ _ _
    exact .pure good₂ trivial
  | .newInstance cls args, _, good => by
    unfold script
    refine steps.meets_scopedValue good fun good₀ => ?_
    refine (steps.meets_script cls good₀).bind ?_
    intro value w₁ good₁ _ _
    refine (steps.meets_scripts args good₁).bind ?_
    intro values w₂ good₂ _ _
    refine .get (.ofExcept good₂ fun handle _ => ?_)
    refine (steps.newInstance handle values good₂).bind ?_
    intro id w₃ good₃ _ _
    exact .pure good₃ trivial
  | .setOverrides target overrides, _, good => by
    unfold script
    refine steps.meets_scopedValue good fun good₀ => ?_
    refine (steps.meets_script target good₀).bind ?_
    intro value w₁ good₁ _ _
    refine (steps.meets_script overrides good₁).bind ?_
    intro given w₂ good₂ _ _
    refine .ofExcept good₂ fun id _ => ?_
    refine (steps.setOverrides id given good₂).bind ?_
    intro _ w₃ good₃ _ _
    exact .pure good₃ trivial
  | .add left right, _, good => by
    unfold script
    refine steps.meets_scopedValue good fun good₀ => ?_
    refine (steps.meets_script left good₀).bind ?_
    intro a w₁ good₁ _ _
    refine (steps.meets_script right good₁).bind ?_
    intro b w₂ good₂ _ _
    split
    · exact .pure good₂ trivial
    · exact .throw good₂ _
  | .save name value, _, good => by
    unfold script
    refine steps.meets_scopedValue good fun good₀ => ?_
    refine (steps.meets_script value good₀).bind ?_
    intro given w₁ good₁ _ _
    exact .modified (steps.setVariable name given good₁) fun good₂ _ => .pure good₂ trivial
  | .log value, _, good => by
    unfold script
    refine steps.meets_scopedValue good fun good₀ => ?_
    refine (steps.meets_script value good₀).bind ?_
    intro given w₁ good₁ _ _
    refine .get ((steps.logEntry _ good₁).bind ?_)
    intro _ w₂ good₂ _ _
    exact .pure good₂ trivial
  | .fail _, _, good => .throw good _
  | .invalid, _, good => .throw good _

theorem meets_scripts (steps : Steps I R V run) {frame : ScriptFrame} :
    ∀ (cs : List ScriptCode) {w : World}, I w → (scripts run frame cs).Meets I R (fun _ _ => True) w
  | [], _, good => .pure good trivial
  | first :: rest, _, good => by
    unfold scripts
    refine (steps.meets_script first good).bind ?_
    intro value w₁ good₁ _ _
    refine (steps.meets_scripts rest good₁).bind ?_
    intro values w₂ good₂ _ _
    exact .pure good₂ trivial

end

end Steps

end Eval

end Interop
