import LatticeGateway.CrashSteps
import LatticeGateway.ReplaySnapshot
import Mathlib.Logic.Function.Basic

namespace LatticeGateway

open CrashSteps

/-- The contents of the files by their paths. -/
abbrev FileSystem := Bytes → Option Bytes

namespace FileSystem

def store (fs : FileSystem) (path text : Bytes) : FileSystem := Function.update fs path (some text)

/-- Removing a file that is not there is no error. -/
def remove (fs : FileSystem) (path : Bytes) : FileSystem := Function.update fs path none

def rename (fs : FileSystem) (source target : Bytes) : FileSystem :=
  Function.update (Function.update fs target (fs source)) source none

end FileSystem

def storeError (detail : String) : Error := makeError .internal .resourceLimit .none detail

def loadText (path : Bytes) (fs : FileSystem) : Except Error Bytes :=
  match fs path with
  | none => .error (storeError "cannot open replay snapshot")
  | some text => .ok text

/-- How the steps of one `save_text` end. There is at most one cleanup in a call. The write puts the first
`written` bytes into the file and leaves the others in the buffer of the stream, which is flushed when the
stream is closed. -/
structure SavePlan where
  create : Outcome := .done
  write : Outcome := .done
  written : Nat := 0
  close : Outcome := .done
  remove : Outcome := .done
  rename : Outcome := .done
  cleanup : Outcome := .done
  deriving DecidableEq, Repr

def tempPath (path : Bytes) : Bytes := path ++ ascii ".tmp"

abbrev SaveEnd := End (Except Error Unit)

def saveFailed (detail : String) (fs : FileSystem) : SaveEnd × FileSystem :=
  (.returned (.error (storeError detail)), fs)

/-- The cleanup on an error branch: its `remove` is the overload that throws. -/
def cleanUp (path : Bytes) (plan : SavePlan) (detail : String) : FileSystem → SaveEnd × FileSystem :=
  step plan.cleanup (·.remove (tempPath path)) (fun fs => (.thrown, fs)) (saveFailed detail)

/-- What `save_text` does with the temporary file. -/
def publish (path : Bytes) (plan : SavePlan) : FileSystem → SaveEnd × FileSystem :=
  step plan.remove (·.remove path) (cleanUp path plan "cannot replace existing replay snapshot") <|
  step plan.rename (·.rename (tempPath path) path) (cleanUp path plan "cannot publish replay snapshot")
    fun fs => (.returned (.ok ()), fs)

/-- The stream is looked at after the write, and no more: a flush that fails is not noticed. -/
def saveText (path text : Bytes) (plan : SavePlan) : FileSystem → SaveEnd × FileSystem :=
  step plan.create (·.store (tempPath path) []) (saveFailed "cannot create replay snapshot temp file") <|
  step plan.write (·.store (tempPath path) (text.take plan.written))
    (saveFailed "cannot write replay snapshot temp file") <|
  step plan.close (·.store (tempPath path) text) (publish path plan) (publish path plan)

/-- The stream is over: it was opened, written to without an error that shows, and closed. -/
def SavePlan.Closes (plan : SavePlan) : Prop :=
  plan.create = .done ∧ plan.write = .done ∧ (plan.close = .done ∨ plan.close = .failed)

/-- The call gets as far as removing the file. -/
def SavePlan.Removes (plan : SavePlan) : Prop := plan.Closes ∧ plan.remove.effective = true

/-- The call gets as far as renaming the temporary file to it. -/
def SavePlan.Publishes (plan : SavePlan) : Prop :=
  plan.Closes ∧ plan.remove = .done ∧ plan.rename.effective = true

/-- By the end of the stream all of the text is in the temporary file. -/
def SavePlan.Flushes (plan : SavePlan) (text : Bytes) : Prop :=
  plan.close = .failed → text.length ≤ plan.written

theorem tempPath_ne (path : Bytes) : path ≠ tempPath path := by
  intro h
  have hlength := congrArg List.length h
  simp [tempPath, ascii] at hlength

section Frame

variable {path : Bytes} {fs : FileSystem}

@[simp] theorem store_temp (text : Bytes) : fs.store (tempPath path) text path = fs path :=
  Function.update_of_ne (tempPath_ne path) _ _

@[simp] theorem temp_stored (text : Bytes) : fs.store (tempPath path) text (tempPath path) = some text :=
  Function.update_self _ _ _

@[simp] theorem remove_temp : fs.remove (tempPath path) path = fs path :=
  Function.update_of_ne (tempPath_ne path) _ _

@[simp] theorem remove_path : fs.remove path path = none := Function.update_self _ _ _

@[simp] theorem temp_kept : fs.remove path (tempPath path) = fs (tempPath path) :=
  Function.update_of_ne (tempPath_ne path).symm _ _

@[simp] theorem rename_path : fs.rename (tempPath path) path path = fs (tempPath path) := by
  unfold FileSystem.rename
  rw [Function.update_of_ne (tempPath_ne path), Function.update_self]

theorem cleanUp_path (plan : SavePlan) (detail : String) : (cleanUp path plan detail fs).2 path = fs path := by
  let I : FileSystem → Prop := fun fs' => fs' path = fs path
  have heffect : ∀ fs', I fs' → I (fs'.remove (tempPath path)) := fun fs' h => remove_temp.trans h
  exact step_keeps (I := I) heffect (fun _ h => h) (fun _ h => h) plan.cleanup rfl

end Frame

section Publish

variable {path : Bytes} {plan : SavePlan} (fs : FileSystem)

theorem publish_untouched (h : plan.remove.effective = false) :
    (publish path plan fs).2 path = fs path := by
  let I : FileSystem → Prop := fun fs' => fs' path = fs path
  have hstart : I fs := rfl
  have hcut : plan.remove ≠ .done := by
    intro hdone
    rw [hdone] at h
    cases h
  exact step_cut (I := I) hcut hstart (fun heffective => by rw [h] at heffective; cases heffective)
    (cleanUp_path plan _)

theorem publish_lost (h : plan.remove.effective = true)
    (h' : ¬ (plan.remove = .done ∧ plan.rename.effective = true)) : (publish path plan fs).2 path = none := by
  let I : FileSystem → Prop := fun fs' => fs' path = none
  unfold publish
  cases houtcome : plan.remove with
  | done =>
    rw [step_done]
    have hcut : plan.rename ≠ .done := fun hrename => h' ⟨houtcome, by rw [hrename]; rfl⟩
    have hremoved : I (fs.remove path) := remove_path
    exact step_cut (I := I) hcut hremoved (fun heffective => absurd ⟨houtcome, heffective⟩ h')
      ((cleanUp_path plan _).trans hremoved)
  | failed =>
    rw [houtcome] at h
    cases h
  | crash happened =>
    rw [houtcome] at h
    obtain rfl : happened = true := h
    rw [step_crash]
    exact remove_path

theorem publish_done (h : plan.remove = .done) (h' : plan.rename.effective = true) :
    (publish path plan fs).2 path = fs (tempPath path) ∧
      ∀ error, (publish path plan fs).1 ≠ .returned (.error error) := by
  have hcontent : ((fs.remove path).rename (tempPath path) path) path = fs (tempPath path) := by
    rw [rename_path, temp_kept]
  unfold publish
  rw [h, step_done]
  cases houtcome : plan.rename with
  | done => exact ⟨hcontent, fun error h => by cases h⟩
  | failed =>
    rw [houtcome] at h'
    cases h'
  | crash happened =>
    rw [houtcome] at h'
    obtain rfl : happened = true := h'
    exact ⟨hcontent, fun error h => by cases h⟩

end Publish

section Save

variable {path text : Bytes} {plan : SavePlan}

/-- A call that does not get to the end of the stream leaves the file alone. -/
theorem saveText_cut (h : ¬ plan.Closes) (fs : FileSystem) : (saveText path text plan fs).2 path = fs path := by
  let I : FileSystem → Prop := fun fs' => fs' path = fs path
  have hstart : I fs := rfl
  have hstore : ∀ content fs', I fs' → I (fs'.store (tempPath path) content) :=
    fun content fs' hfs => (store_temp content).trans hfs
  unfold SavePlan.Closes at h
  unfold saveText
  by_cases hcreate : plan.create = .done
  · rw [hcreate, step_done]
    by_cases hwrite : plan.write = .done
    · rw [hwrite, step_done]
      cases hclose : plan.close with
      | done => exact absurd ⟨hcreate, hwrite, .inl hclose⟩ h
      | failed => exact absurd ⟨hcreate, hwrite, .inr hclose⟩ h
      | crash happened =>
        cases happened with
        | true => exact hstore _ _ (hstore _ _ (hstore _ _ hstart))
        | false => exact hstore _ _ (hstore _ _ hstart)
    · exact step_cut (I := I) hwrite (hstore _ _ hstart) (fun _ => hstore _ _ (hstore _ _ hstart))
        (hstore _ _ hstart)
  · exact step_cut (I := I) hcreate hstart (fun _ => hstore _ _ hstart) hstart

/-- At the end of the stream the temporary file holds the text, or as much of it as was written. -/
theorem saveText_closed (h : plan.Closes) (fs : FileSystem) : ∃ fs' : FileSystem,
    saveText path text plan fs = publish path plan fs' ∧ fs' path = fs path ∧
      (plan.Flushes text → fs' (tempPath path) = some text) ∧
      (¬ plan.Flushes text → fs' (tempPath path) = some (text.take plan.written)) := by
  obtain ⟨hcreate, hwrite, hclose⟩ := h
  unfold saveText
  rw [hcreate, hwrite, step_done, step_done]
  rcases hclose with hdone | hfailed
  · rw [hdone]
    refine ⟨_, rfl, by simp, fun _ => temp_stored _, fun hcut => ?_⟩
    exact absurd (fun hfailed => by rw [hdone] at hfailed; cases hfailed) hcut
  · rw [hfailed]
    refine ⟨_, rfl, by simp, fun hflushes => ?_, fun _ => temp_stored _⟩
    rw [temp_stored, List.take_of_length_le (hflushes hfailed)]

/-- A call that does not get to the removal leaves the file alone. -/
theorem saveText_untouched (h : ¬ plan.Removes) (fs : FileSystem) :
    (saveText path text plan fs).2 path = fs path := by
  by_cases hcloses : plan.Closes
  · obtain ⟨fs', hpublish, hsame, _⟩ := @saveText_closed path text plan hcloses fs
    rw [hpublish, ← hsame]
    exact publish_untouched fs' (Bool.eq_false_iff.mpr fun hremove => h ⟨hcloses, hremove⟩)
  · exact saveText_cut hcloses fs

/-- Once the file is removed and until the rename there is no content. -/
theorem saveText_lost (h : plan.Removes) (h' : ¬ plan.Publishes) (fs : FileSystem) :
    (saveText path text plan fs).2 path = none := by
  obtain ⟨fs', hpublish, _⟩ := @saveText_closed path text plan h.1 fs
  rw [hpublish]
  exact publish_lost fs' h.2 fun hdone => h' ⟨h.1, hdone⟩

/-- The rename publishes what is in the temporary file, be it all of the text or not. -/
theorem saveText_published (h : plan.Publishes) (fs : FileSystem) :
    (plan.Flushes text → (saveText path text plan fs).2 path = some text) ∧
      (¬ plan.Flushes text → (saveText path text plan fs).2 path = some (text.take plan.written)) ∧
      ∀ error, (saveText path text plan fs).1 ≠ .returned (.error error) := by
  obtain ⟨hcloses, hremove, hrename⟩ := h
  obtain ⟨fs', hpublish, _, hflushed, hcut⟩ := @saveText_closed path text plan hcloses fs
  obtain ⟨hcontent, hok⟩ := @publish_done path plan fs' hremove hrename
  rw [hpublish]
  exact ⟨fun h => hcontent.trans (hflushed h), fun h => hcontent.trans (hcut h), hok⟩

end Save

/-- Afterwards the file holds what it held, or all of the new text; and after an error what it held. -/
structure SaveKeeps (path text : Bytes) (plan : SavePlan) (fs : FileSystem) : Prop where
  content : (saveText path text plan fs).2 path = fs path ∨ (saveText path text plan fs).2 path = some text
  error : ∀ error, (saveText path text plan fs).1 = .returned (.error error) →
    (saveText path text plan fs).2 path = fs path

/-- The previous snapshot is kept by exactly the calls that publish all of the text (or what was there
before) and that, where there is a snapshot, do not stop between its removal and the rename. -/
theorem save_keeps_iff (path text : Bytes) (plan : SavePlan) (fs : FileSystem) :
    SaveKeeps path text plan fs ↔
      (plan.Publishes → plan.Flushes text ∨ fs path = some (text.take plan.written)) ∧
      (plan.Removes → ¬ plan.Publishes → fs path = none) := by
  constructor
  · rintro ⟨hcontent, -⟩
    refine ⟨fun hpublishes => ?_, fun hremoves hnot => ?_⟩
    · by_contra hneither
      obtain ⟨hcut, hother⟩ := not_or.mp hneither
      obtain ⟨-, hpublished, -⟩ := @saveText_published path text plan hpublishes fs
      rw [hpublished hcut] at hcontent
      rcases hcontent with hold | hnew
      · exact hother hold.symm
      · have hlength := congrArg List.length (Option.some.inj hnew)
        rw [List.length_take] at hlength
        exact hcut fun _ => by omega
    · rw [saveText_lost hremoves hnot fs] at hcontent
      exact hcontent.elim Eq.symm fun h => by cases h
  · rintro ⟨hpublish, hlost⟩
    by_cases hpublishes : plan.Publishes
    · obtain ⟨hflushed, hcut, hok⟩ := @saveText_published path text plan hpublishes fs
      refine ⟨?_, fun error herror => absurd herror (hok error)⟩
      by_cases hflushes : plan.Flushes text
      · exact .inr (hflushed hflushes)
      · exact .inl ((hcut hflushes).trans ((hpublish hpublishes).resolve_left hflushes).symm)
    · have hsame : (saveText path text plan fs).2 path = fs path := by
        by_cases hremoves : plan.Removes
        · rw [saveText_lost hremoves hpublishes fs, hlost hremoves hpublishes]
        · exact saveText_untouched hremoves fs
      exact ⟨.inl hsame, fun _ _ => hsame⟩

/-- A snapshot file that holds one byte. -/
def savedSnapshot : FileSystem := fun path => if path = ascii "replay" then some [1] else none

theorem save_loses_snapshot :
    ¬ SaveKeeps (ascii "replay") [2] { remove := .crash true } savedSnapshot ∧
      ¬ SaveKeeps (ascii "replay") [2] { rename := .failed } savedSnapshot ∧
      ¬ SaveKeeps (ascii "replay") [2] { close := .failed } savedSnapshot ∧
      (loadText (ascii "replay") savedSnapshot).isOk = true ∧
      (loadText (ascii "replay")
        (saveText (ascii "replay") [2] { rename := .failed } savedSnapshot).2).isOk = false ∧
      (saveText (ascii "replay") [2] { close := .failed } savedSnapshot).1 = .returned (.ok ()) := by
  have hended :
      ((saveText (ascii "replay") [2] { remove := .crash true } savedSnapshot).2 (ascii "replay") = none) ∧
      ((saveText (ascii "replay") [2] { rename := .failed } savedSnapshot).2 (ascii "replay") = none) ∧
      ((saveText (ascii "replay") [2] { close := .failed } savedSnapshot).2 (ascii "replay") = some []) ∧
      (loadText (ascii "replay") savedSnapshot).isOk = true ∧
      (loadText (ascii "replay")
        (saveText (ascii "replay") [2] { rename := .failed } savedSnapshot).2).isOk = false ∧
      (saveText (ascii "replay") [2] { close := .failed } savedSnapshot).1 = .returned (.ok ()) := by
    decide +kernel
  obtain ⟨hcrash, hfailed, hcut, hrest⟩ := hended
  have hheld : savedSnapshot (ascii "replay") = some [1] := by decide +kernel
  have hlost : ∀ {plan : SavePlan} {content : Option Bytes},
      (saveText (ascii "replay") [2] plan savedSnapshot).2 (ascii "replay") = content →
      content ≠ some [1] → content ≠ some [2] → ¬ SaveKeeps (ascii "replay") [2] plan savedSnapshot := by
    rintro plan content rfl hold hnew h
    exact h.content.elim (fun hsame => hold (hsame.trans hheld)) hnew
  exact ⟨hlost hcrash (by decide) (by decide), hlost hfailed (by decide) (by decide),
    hlost hcut (by decide) (by decide), hrest⟩

end LatticeGateway
