import LuaDocs.Section.Store

/-!
# Runs of editing steps

What steps on a store come to: their answer and the store after them. Each step has one equation with all
its outcomes, so that nothing further on looks into the monad.
-/

namespace LuaDocs

variable {ε σ α β : Type}

/-- What some steps answer, and the state after them. -/
def runOn (steps : ExceptT ε (StateM σ) α) (state : σ) : Except ε α × σ :=
  StateT.run (ExceptT.run steps) state

@[simp] theorem runOn_pure (a : α) (s : σ) :
    runOn (pure a : ExceptT ε (StateM σ) α) s = (.ok a, s) := rfl

@[simp] theorem runOn_throw (e : ε) (s : σ) :
    runOn (throw e : ExceptT ε (StateM σ) α) s = (.error e, s) := rfl

theorem runOn_bind (steps : ExceptT ε (StateM σ) α) (next : α → ExceptT ε (StateM σ) β) (s : σ) :
    runOn (steps >>= next) s =
      match runOn steps s with
      | (.ok a, s) => runOn (next a) s
      | (.error e, s) => (.error e, s) := by
  simp only [runOn, ExceptT.run_bind, StateT.run_bind]
  cases h : StateT.run (ExceptT.run steps) s with
  | mk answer s' =>
    cases answer <;> simp <;> rfl

theorem runOn_bind_ok {steps : ExceptT ε (StateM σ) α} {next : α → ExceptT ε (StateM σ) β}
    {s s' : σ} {a : α} (h : runOn steps s = (.ok a, s')) :
    runOn (steps >>= next) s = runOn (next a) s' := by
  rw [runOn_bind, h]

theorem runOn_bind_error {steps : ExceptT ε (StateM σ) α} {next : α → ExceptT ε (StateM σ) β}
    {s s' : σ} {e : ε} (h : runOn steps s = (.error e, s')) :
    runOn (steps >>= next) s = (.error e, s') := by
  rw [runOn_bind, h]

/-- An answer of several steps comes from an answer of the first. -/
theorem runOn_bind_eq_ok {steps : ExceptT ε (StateM σ) α} {next : α → ExceptT ε (StateM σ) β}
    {s : σ} {b : β} (h : (runOn (steps >>= next) s).1 = .ok b) :
    ∃ a s', runOn steps s = (.ok a, s') ∧ (runOn (next a) s').1 = .ok b := by
  rw [runOn_bind] at h
  split at h
  · next a s' hsteps => exact ⟨a, s', hsteps, h⟩
  · cases h

@[simp] theorem runOn_get_bind (next : σ → ExceptT ε (StateM σ) β) (s : σ) :
    runOn (get >>= next) s = runOn (next s) s := rfl

namespace Editing

open SectionStore

variable {store : σ} {path : Path} {markers : Markers} {body : List Text}
  {text old new marker : Text}

section

variable [MarkerLanguage]

theorem runOn_hasMarker :
    runOn (hasMarker marker text) store =
      ((Markers.occurs marker text).mapError .marker, store) := by
  rw [hasMarker]
  cases Markers.occurs marker text <;> rfl

end

variable [SectionStore σ]

theorem runOn_readText :
    runOn (readText path) store = ((read store path).mapError (.io path), store) := by
  rw [readText, runOn_get_bind]
  cases read store path <;> rfl

theorem runOn_readText_ok (h : read store path = .ok text) :
    runOn (readText path) store = (.ok text, store) := by
  rw [runOn_readText, h]
  rfl

theorem runOn_readText_error {e : IoError} (h : read store path = .error e) :
    runOn (readText path) store = (.error (.io path e), store) := by
  rw [runOn_readText, h]
  rfl

theorem runOn_writeText :
    runOn (writeText path text) store =
      match write store path text with
      | .ok store => (.ok (), store)
      | .error e => (.error (.io path e), store) := by
  rw [writeText, runOn_get_bind]
  cases write store path text <;> rfl

variable [MarkerLanguage]

theorem runOn_readSection :
    runOn (readSection path markers) store =
      (match (files store).readText path with
        | .error e => .error (.io path e)
        | .ok text => (markers.bodyOf text).mapError (.inFile path), store) := by
  rw [readSection, runOn_get_bind]
  cases (files store).readText path with
  | error e => rfl
  | ok text =>
    simp only
    cases markers.bodyOf text <;> rfl

theorem runOn_replace_unreadable {e : IoError} (h : read store path = .error e) :
    runOn (replace path markers body) store = (.error (.io path e), store) := by
  rw [replace, runOn_bind_error (runOn_readText_error h)]

theorem runOn_replace_fault {fault : SectionFault} (h : read store path = .ok old)
    (hsplice : markers.splice old body = .error fault) :
    runOn (replace path markers body) store = (.error (.inFile path fault), store) := by
  rw [replace, runOn_bind_ok (runOn_readText_ok h)]
  simp only [hsplice, runOn_throw]

theorem runOn_replace_unchanged (h : read store path = .ok old)
    (hsplice : markers.splice old body = .ok old) :
    runOn (replace path markers body) store =
      (.ok false, note store
        ⟨.debug, path ++ ": section ".toList ++ markers.start ++ " unchanged".toList⟩) := by
  rw [replace, runOn_bind_ok (runOn_readText_ok h)]
  simp only [hsplice, beq_self_eq_true, if_true]
  rfl

theorem runOn_replace_refused {e : IoError} (h : read store path = .ok old)
    (hsplice : markers.splice old body = .ok new) (hne : new ≠ old)
    (hwrite : write store path new = .error e) :
    runOn (replace path markers body) store = (.error (.io path e), store) := by
  have hbeq : (old == new) = false := beq_eq_false_iff_ne.2 (Ne.symm hne)
  have hput : runOn (writeText path new) store = (.error (.io path e), store) := by
    rw [runOn_writeText, hwrite]
  rw [replace, runOn_bind_ok (runOn_readText_ok h)]
  simp only [hsplice, hbeq, Bool.false_eq_true, if_false]
  rw [runOn_bind_error hput]

theorem runOn_replace_changed {store' : σ} (h : read store path = .ok old)
    (hsplice : markers.splice old body = .ok new) (hne : new ≠ old)
    (hwrite : write store path new = .ok store') :
    runOn (replace path markers body) store =
      (.ok true, note store' ⟨.info, "updated ".toList ++ markers.start ++ " in ".toList ++ path⟩) := by
  have hbeq : (old == new) = false := beq_eq_false_iff_ne.2 (Ne.symm hne)
  have hput : runOn (writeText path new) store = (.ok (), store') := by
    rw [runOn_writeText, hwrite]
  rw [replace, runOn_bind_ok (runOn_readText_ok h)]
  simp only [hsplice, hbeq, Bool.false_eq_true, if_false]
  rw [runOn_bind_ok hput]
  rfl

end Editing

end LuaDocs
