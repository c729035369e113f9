import Interop.Proofs.World.Evaluation
import Interop.Proofs.World.Proxies

/-!
The engine is safe: code in which every value is known keeps the world sound, and so do calls
between native and script code, by induction on how many bodies may still be entered.
-/
namespace Interop.Eval

open Interop.Task (Safe)

variable {w : World} {run : Runner}

theorem sound_setVariable (sound : w.Sound) (name : String) (value : ScriptValue) :
    (w.setVariable name value).Sound ∧ w.Grows (w.setVariable name value) := by
  have kept : w.handles.Evolves w.Shows (w.setVariable name value).handles :=
    (HandleTable.evolves_foldl (fun _ id => HandleTable.evolves_retain id) value.handles _).trans
      (HandleTable.evolves_foldl (fun _ id => HandleTable.evolves_drop id) _ _)
  have uses : w.handles.Used (w.setVariable name value).handles :=
    (HandleTable.used_retainAll value.handles _).trans (HandleTable.used_dropAll _ _)
  obtain ⟨sound', grows⟩ := sound.withHandles kept uses
  have stored : (w.setVariable name value).Sound ∧ _ := sound'.unaffected rfl rfl rfl rfl rfl
  exact ⟨stored.1, grows.trans stored.2⟩

/-- What native code writes to a field is known. -/
theorem safe_writes : Writes World.Sound World.Grows Known :=
  fun sound known written => sound.setField known written

theorem safe_steps (safe : run.Safe) : Steps World.Sound World.Grows Known run where
  lasting grows known := grows.knows known
  plain := by
    intro w v notObject
    cases v with
    | object ref => cases notObject
    | _ => trivial
  field sound found := sound.field found
  element sound found := sound.elements (List.mem_of_getElem? found)
  nativeVariable sound found := sound.native_variables _ (mem_of_lookup found)
  target sound found := (sound.handles _ (List.mem_of_getElem? found)).1
  openScope sound := sound.unaffected rfl rfl rfl rfl rfl
  endScope outer result sound := Task.sound_endScope sound outer result
  hold value sound := Invoke.sound_hold sound value
  setVariable name value sound := sound_setVariable sound name value
  lookupType name sound := Task.safe_lookupType sound name
  arrayOf component sound := (Task.safe_arrayOf sound component).mono fun _ _ _ => trivial
  newArray component sound known :=
    (Marshal.safe_newArray sound component known).mono fun _ _ made => made.1
  addFunction body sound := Task.safe_addFunction sound body
  logEntry entry sound := Task.safe_logEntry sound entry
  storeElement index sound held known := Invoke.safe_storeElement sound held known
  invokeVirtual name sound held known := Invoke.safe_invokeVirtual safe sound name held known
  construct sound listed known :=
    Invoke.safe_construct safe sound (Constructor.declared_of_mem sound.registry listed) known
  call proxy site sound := Proxy.safe_call safe sound proxy site
  getField proxy name sound := Proxy.safe_getField sound proxy name
  setField proxy name value sound := Proxy.safe_setField sound proxy name value
  superView id sound := Task.safe_superView sound id
  newInstance handle args sound := ClassHandle.safe_newInstance safe sound handle args
  setOverrides id overrides sound := HandleId.safe_setOverrides sound id overrides

theorem safe_code (safe : run.Safe) {frame : Frame} (c : Code) (sound : w.Sound)
    (known : ∀ v ∈ c.values, w.heap.Knows v) (frameKnown : frame.Known w) :
    Safe (code run frame c) Known w :=
  (safe_steps safe).meets_code c (fun _ => safe_writes) sound known frameKnown

theorem safe_script (safe : run.Safe) {frame : ScriptFrame} (c : ScriptCode) (sound : w.Sound) :
    Safe (script run frame c) (fun _ _ => True) w :=
  (safe_steps safe).meets_script c sound

theorem safe_engine (depth : Nat) : (engine depth).Safe := by
  induction depth with
  | zero => exact ⟨fun sound _ _ => .throw sound _, fun sound => .throw sound _⟩
  | succ depth ih =>
    refine ⟨fun sound known frameKnown => safe_code ih _ sound known frameKnown, ?_⟩
    intro id this args w sound
    refine .get ?_
    split
    · exact safe_script ih _ sound
    · exact .pure sound trivial

end Interop.Eval
