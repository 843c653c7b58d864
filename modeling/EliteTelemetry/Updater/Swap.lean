/-
  EliteTelemetry.Updater.Swap — how the updater replaces the agent's binary (`run` from the
  swap on, `atomicSwap` and `rollback` of `cmd/elite-updater/main.go`).

  The swap moves the binary to the previous directory, or copies and removes it where a move
  fails, then copies the new one into its place and makes it executable. If the agent is not
  healthy after that, the previous binary is copied back. Every single operation may fail;
  those that remove a file fail without notice.

  Only the health check leads to the roll-back: a swap that fails after the binary was moved
  away returns its error and leaves no binary, a part of the new one or all of it. The binary
  is the previous one after every reported error, if the roll-back's own operations succeed,
  exactly for the failures `Harmless` describes (`swap_restores_iff`). Where the previous
  directory is the one of the binary, the swap removes the binary it is to save.
-/

import EliteTelemetry.Lib.Files

namespace EliteTelemetry.Updater

open EliteTelemetry.Lib.Files

variable {P : Type} [DecidableEq P]

/-- The binary, where the previous one is kept, and what was downloaded into a directory made
    for it. -/
structure Layout (P : Type) where
  dst : P
  prev : P
  src : P
  src_ne_dst : src ≠ dst
  src_ne_prev : src ≠ prev

structure Faults where
  mkdirBin : Bool
  mkdirPrev : Bool
  /-- `os.Stat(dst)`: the swap then goes on as if there were no binary. -/
  statDst : Bool
  removePrev : Bool
  rename : Bool
  backup : CopyFault
  removeDst : Bool
  install : CopyFault
  chmod : Bool
  unhealthy : Bool
  statPrev : Bool
  /-- `os.Remove(dst)` in the roll-back. -/
  removeNew : Bool
  restore : CopyFault
  deriving DecidableEq, Repr

def Faults.nothing : Faults :=
  ⟨false, false, false, false, false, .none, false, .none, false, false, false, false, .none⟩

def backUp (l : Layout P) (f : Faults) (fs : FS P) : Bool × FS P :=
  if f.mkdirBin || f.mkdirPrev then (false, fs)
  else if f.statDst || (fs l.dst).isNone then (true, fs)
  else
    let moved := Lib.Files.rename f.rename l.dst l.prev (remove f.removePrev l.prev fs)
    if moved.1 then moved
    else
      let copied := copyFile f.backup l.dst l.prev moved.2
      if copied.1 then (true, remove f.removeDst l.dst copied.2) else copied

def atomicSwap (l : Layout P) (f : Faults) (fs : FS P) : Bool × FS P :=
  let saved := backUp l f fs
  if saved.1 then
    let copied := copyFile f.install l.src l.dst saved.2
    (copied.1 && !f.chmod, copied.2)
  else saved

def rollback (l : Layout P) (f : Faults) (fs : FS P) : Bool × FS P :=
  if f.statPrev || (fs l.prev).isNone then (false, fs)
  else copyFile f.restore l.prev l.dst (remove f.removeNew l.dst fs)

inductive Result where
  | applied
  | swapFailed
  /-- The error "health failed after update; rolled back: %w". -/
  | rolledBack
  /-- The error "health failed (%v); rollback failed: %w". -/
  | rollbackFailed
  deriving DecidableEq, Repr

def checkHealth (l : Layout P) (f : Faults) (fs : FS P) : Result × FS P :=
  if f.unhealthy then
    let back := rollback l f fs
    (if back.1 then .rolledBack else .rollbackFailed, back.2)
  else (.applied, fs)

def finish (l : Layout P) (f : Faults) (fs : FS P) : Result × FS P :=
  let swapped := atomicSwap l f fs
  if swapped.1 then checkHealth l f swapped.2 else (.swapFailed, swapped.2)

/-- Any files, with the binary in its place and the new one downloaded. -/
def initially (l : Layout P) (fs : FS P) (old new : Bytes) : FS P :=
  Function.update (Function.update fs l.dst (some old)) l.src (some new)

/-- What is promised of how an update ends: the previous binary after an error, where the
    operations of the roll-back succeed, and the new one otherwise. -/
structure Restores (l : Layout P) (f : Faults) (old new : Bytes) (r : Result × FS P) : Prop where
  swapFailed : r.1 = .swapFailed → r.2 l.dst = some old
  rolledBack : r.1 = .rolledBack → f.removeNew = false → r.2 l.dst = some old
  applied : r.1 = .applied → r.2 l.dst = some new

/-! ## The failures that do no harm -/

def Faults.RollsBack (f : Faults) : Prop := f.statPrev = false ∧ f.removeNew = false ∧ f.restore = .none

/-- What may go wrong from the copy of the new binary on. `inPlace` is whether the previous
    binary is still in its place when that copy begins, and `saved` what is kept as the previous
    one. -/
def InstallHarmless (f : Faults) (old new : Bytes) (inPlace : Prop) (saved : Option Bytes) : Prop :=
  match f.install with
  | .openSrc => inPlace
  | .openDst => inPlace
  | .write n => new.take n = old
  | .none =>
    if f.chmod then new = old else f.unhealthy = true → f.RollsBack → ∀ kept, saved = some kept → kept = old

def Faults.Untouched (f : Faults) : Prop := f.mkdirBin = true ∨ f.mkdirPrev = true

/-- The failures after which the previous binary is in its place. Where the binary was not
    seen, nothing is saved, and the roll-back brings back what was there from an earlier update. -/
def Harmless (f : Faults) (old new : Bytes) (before : Option Bytes) : Prop :=
  f.Untouched ∨
    if f.statDst then InstallHarmless f old new True before
    else if f.rename then f.backup ≠ .none ∨ InstallHarmless f old new (f.removeDst = true) (some old)
    else InstallHarmless f old new False (some old)

/-- The same where the previous directory is the one of the binary. The binary stays in its
    place only if it is not seen, or cannot be removed and is renamed to itself; if it is
    copied to itself, it is empty. A roll-back removes what it is to copy, so there is none. -/
def HarmlessAlias (f : Faults) (old new : Bytes) : Prop :=
  f.Untouched ∨
    if f.statDst then InstallHarmless f old new True none
    else if f.removePrev then
      if f.rename then
        match f.backup with
        | .openSrc => True
        | .openDst => True
        | .write _ => old = []
        | .none => InstallHarmless f old new (f.removeDst = true ∧ old = []) none
      else InstallHarmless f old new True none
    else False

/-! ## The new binary -/

section Install

variable {l : Layout P} {f : Faults} {fs : FS P} {old new : Bytes}

theorem rollback_alias (halias : l.prev = l.dst) (hr : f.removeNew = false) (fs : FS P) :
    (rollback l f fs).1 = false := by
  unfold rollback
  split
  · rfl
  · rw [copyFile_missing f.restore (by rw [halias, remove_self, hr]; rfl)]

theorem rollback_fst (hprev : l.prev ≠ l.dst) {kept : Bytes} (h : fs l.prev = some kept) :
    (rollback l f fs).1 = true ↔ f.statPrev = false ∧ f.restore = .none := by
  unfold rollback
  cases hs : f.statPrev with
  | true => simp
  | false =>
    have hkept : remove f.removeNew l.dst fs l.prev = some kept := by rw [remove_of_ne _ hprev, h]
    simp [h, copyFile_fst f.restore hkept]

theorem rollback_dst (hprev : l.prev ≠ l.dst) {kept : Bytes} (h : fs l.prev = some kept)
    (hok : (rollback l f fs).1 = true) : (rollback l f fs).2 l.dst = some kept := by
  obtain ⟨hs, hrestore⟩ := (rollback_fst hprev h).mp hok
  have hkept : remove f.removeNew l.dst fs l.prev = some kept := by rw [remove_of_ne _ hprev, h]
  unfold rollback
  rw [if_neg (by simp [hs, h]), hrestore, copyFile_ok hkept hprev]
  exact Function.update_self _ _ _

theorem checkHealth_restores_iff (hnew : fs l.dst = some new) :
    Restores l f old new (checkHealth l f fs) ↔
      (f.unhealthy = true → f.RollsBack → l.prev ≠ l.dst → ∀ kept, fs l.prev = some kept → kept = old) := by
  unfold checkHealth
  cases hu : f.unhealthy with
  | false => exact ⟨fun _ h => (by cases h), fun _ => ⟨fun h => (by cases h), fun h => (by cases h), fun _ => hnew⟩⟩
  | true =>
    simp only [if_true]
    constructor
    · intro h _ hrolls hprev kept hkept
      have hok := (rollback_fst (f := f) hprev hkept).mpr ⟨hrolls.1, hrolls.2.2⟩
      have hdst := h.rolledBack (if_pos hok) hrolls.2.1
      exact Option.some.inj ((rollback_dst hprev hkept hok).symm.trans hdst)
    · intro h
      refine ⟨fun hr => ?_, fun hr hremove => ?_, fun hr => ?_⟩
      · dsimp only at hr
        split at hr <;> cases hr
      · have hok : (rollback l f fs).1 = true := by
          by_contra hno
          rw [if_neg hno] at hr
          cases hr
        have hprev : l.prev ≠ l.dst := fun halias => by
          rw [rollback_alias halias hremove fs] at hok
          cases hok
        cases hkept : fs l.prev with
        | none => simp [rollback, hkept] at hok
        | some kept =>
          obtain ⟨hs, hrestore⟩ := (rollback_fst hprev hkept).mp hok
          rw [rollback_dst hprev hkept hok, h trivial ⟨hs, hremove, hrestore⟩ hprev kept hkept]
      · dsimp only at hr
        split at hr <;> cases hr

omit [DecidableEq P] in
theorem restores_of_swapFailed {fs' : FS P} : Restores l f old new (.swapFailed, fs') ↔ fs' l.dst = some old :=
  ⟨fun h => h.swapFailed rfl, fun h => ⟨fun _ => h, fun hr => (by cases hr), fun hr => (by cases hr)⟩⟩

theorem finish_unopened {saved : FS P} (hsaved : backUp l f fs = (true, saved)) (h : f.install.opens = false) :
    finish l f fs = (.swapFailed, saved) := by
  simp [finish, atomicSwap, hsaved, copyFile_unopened h]

/-- How an update ends that has come to the copy of the new binary. -/
theorem finish_restores_iff {saved : FS P} (hsaved : backUp l f fs = (true, saved)) (hsrc : saved l.src = some new)
    {inPlace : Prop} (hplace : saved l.dst = some old ↔ inPlace) {kept : Option Bytes}
    (hkept : l.prev ≠ l.dst → saved l.prev = kept) (halias : l.prev = l.dst → kept = none) :
    Restores l f old new (finish l f fs) ↔ InstallHarmless f old new inPlace kept := by
  have hne := l.src_ne_dst
  unfold InstallHarmless
  cases hi : f.install with
  | openSrc => rw [finish_unopened hsaved (by rw [hi]; rfl), restores_of_swapFailed, hplace]
  | openDst => rw [finish_unopened hsaved (by rw [hi]; rfl), restores_of_swapFailed, hplace]
  | write n =>
    have hfinish : finish l f fs = (.swapFailed, Function.update saved l.dst (some (new.take n))) := by
      simp [finish, atomicSwap, hsaved, hi, copyFile_write n hsrc hne]
    rw [hfinish, restores_of_swapFailed, Function.update_self, Option.some.injEq]
  | none =>
    have hcopy : copyFile .none l.src l.dst saved = (true, Function.update saved l.dst (some new)) :=
      copyFile_ok hsrc hne
    cases hc : f.chmod with
    | true =>
      have hfinish : finish l f fs = (.swapFailed, Function.update saved l.dst (some new)) := by
        simp [finish, atomicSwap, hsaved, hi, hcopy, hc]
      rw [hfinish, restores_of_swapFailed, Function.update_self, Option.some.injEq]
      rfl
    | false =>
      have hfinish : finish l f fs = checkHealth l f (Function.update saved l.dst (some new)) := by
        simp [finish, atomicSwap, hsaved, hi, hcopy, hc]
      rw [hfinish, checkHealth_restores_iff (Function.update_self _ _ _)]
      by_cases hprev : l.prev = l.dst
      · simp [hprev, halias hprev]
      · rw [Function.update_of_ne hprev, hkept hprev]
        simp [hprev]

end Install

/-! ## The previous binary -/

section BackUp

variable (l : Layout P) {f : Faults} {fs : FS P} {old new : Bytes}

theorem backUp_untouched (h : f.Untouched) (fs : FS P) : backUp l f fs = (false, fs) := by
  unfold backUp
  rw [if_pos (by simpa [Faults.Untouched] using h)]

theorem stopped_restores_iff {saved : FS P} (h : backUp l f fs = (false, saved)) :
    Restores l f old new (finish l f fs) ↔ saved l.dst = some old := by
  have hfinish : finish l f fs = (.swapFailed, saved) := by simp [finish, atomicSwap, h]
  rw [hfinish, restores_of_swapFailed]

theorem backUp_unseen (h : ¬ f.Untouched) (hs : f.statDst = true) (fs : FS P) : backUp l f fs = (true, fs) := by
  unfold backUp
  rw [if_neg (by simpa [Faults.Untouched] using h), if_pos (by simp [hs])]

section Seen

variable {fs₁ fs₂ : FS P} (h : ¬ f.Untouched) (hs : f.statDst = false) (hold : fs l.dst = some old)
include h hs hold

theorem backUp_moved (hmove : Lib.Files.rename f.rename l.dst l.prev (remove f.removePrev l.prev fs) = (true, fs₁)) :
    backUp l f fs = (true, fs₁) := by
  unfold backUp
  rw [if_neg (by simpa [Faults.Untouched] using h), if_neg (by simp [hs, hold])]
  simp [hmove]

theorem backUp_copied (hmove : Lib.Files.rename f.rename l.dst l.prev (remove f.removePrev l.prev fs) = (false, fs₁))
    (hcopy : copyFile f.backup l.dst l.prev fs₁ = (true, fs₂)) :
    backUp l f fs = (true, remove f.removeDst l.dst fs₂) := by
  unfold backUp
  rw [if_neg (by simpa [Faults.Untouched] using h), if_neg (by simp [hs, hold])]
  simp [hmove, hcopy]

theorem backUp_failed (hmove : Lib.Files.rename f.rename l.dst l.prev (remove f.removePrev l.prev fs) = (false, fs₁))
    (hcopy : copyFile f.backup l.dst l.prev fs₁ = (false, fs₂)) : backUp l f fs = (false, fs₂) := by
  unfold backUp
  rw [if_neg (by simpa [Faults.Untouched] using h), if_neg (by simp [hs, hold])]
  simp [hmove, hcopy]

end Seen

variable {l}

/-- Two directories: the binary is moved, copied and removed, or left alone. -/
theorem harmless_iff (hprev : l.prev ≠ l.dst) (hold : fs l.dst = some old) (hnew : fs l.src = some new) :
    Restores l f old new (finish l f fs) ↔ Harmless f old new (fs l.prev) := by
  have hsrc := l.src_ne_dst
  have hsrc' := l.src_ne_prev
  unfold Harmless
  by_cases hu : f.Untouched
  · exact (stopped_restores_iff l (backUp_untouched l hu fs)).trans (iff_of_true hold (.inl hu))
  · rw [or_iff_right hu]
    cases hs : f.statDst with
    | true =>
      exact finish_restores_iff (backUp_unseen l hu hs fs) hnew (iff_of_true hold trivial) (fun _ => rfl)
        (fun halias => absurd halias hprev)
    | false =>
      have hold' : remove f.removePrev l.prev fs l.dst = some old := by rw [remove_of_ne _ hprev.symm, hold]
      have hnew' : remove f.removePrev l.prev fs l.src = some new := by rw [remove_of_ne _ hsrc', hnew]
      cases hr : f.rename with
      | false =>
        have hmove := rename_ok hold' hprev.symm
        refine finish_restores_iff (backUp_moved l hu hs hold (hr ▸ hmove)) ?_ ?_ (fun _ => ?_)
          (fun halias => absurd halias hprev)
        · rw [Function.update_of_ne hsrc, Function.update_of_ne hsrc', hnew']
        · simp
        · rw [Function.update_of_ne hprev, Function.update_self]
      | true =>
        have hmove := rename_fault l.dst l.prev (remove f.removePrev l.prev fs)
        rw [← hr] at hmove
        by_cases hb : f.backup = .none
        · have hcopy := copyFile_ok hold' hprev.symm
          rw [← hb] at hcopy
          simp only [Bool.false_eq_true, if_false, if_true, hb, ne_eq, not_true_eq_false, false_or]
          refine finish_restores_iff (backUp_copied l hu hs hold hmove hcopy) ?_ ?_ (fun _ => ?_)
            (fun halias => absurd halias hprev)
          · rw [remove_of_ne _ hsrc, Function.update_of_ne hsrc', hnew']
          · rw [remove_self, Function.update_of_ne hprev.symm, hold']
            simp
          · rw [remove_of_ne _ hprev, Function.update_self]
        · have hfst : (copyFile f.backup l.dst l.prev (remove f.removePrev l.prev fs)).1 = false := by
            simpa using mt (copyFile_fst f.backup hold').mp hb
          refine (stopped_restores_iff l (backUp_failed l hu hs hold hmove (Prod.ext hfst rfl))).trans ?_
          exact iff_of_true ((copyFile_of_ne _ hprev.symm).trans hold') (by simp [hb])

/-- One directory: what is removed to make room is the binary itself. -/
theorem harmlessAlias_iff (halias : l.prev = l.dst) (hold : fs l.dst = some old) (hnew : fs l.src = some new) :
    Restores l f old new (finish l f fs) ↔ HarmlessAlias f old new := by
  have hsrc := l.src_ne_dst
  have hsame : ∀ saved : FS P, l.prev ≠ l.dst → saved l.prev = none := fun _ h => absurd halias h
  unfold HarmlessAlias
  by_cases hu : f.Untouched
  · exact (stopped_restores_iff l (backUp_untouched l hu fs)).trans (iff_of_true hold (.inl hu))
  · rw [or_iff_right hu]
    cases hs : f.statDst with
    | true =>
      exact finish_restores_iff (backUp_unseen l hu hs fs) hnew (iff_of_true hold trivial) (hsame fs) (fun _ => rfl)
    | false =>
      cases hp : f.removePrev with
      | false =>
        have hgone : remove f.removePrev l.prev fs l.dst = none := by rw [halias, remove_self, hp]; rfl
        have hstopped := backUp_failed l hu hs hold (rename_missing f.rename hgone) (copyFile_missing f.backup hgone)
        rw [stopped_restores_iff l hstopped, hgone]
        simp
      | true =>
        have hkept : remove f.removePrev l.prev fs = fs := by rw [hp]; rfl
        cases hr : f.rename with
        | false =>
          have hmove : Lib.Files.rename f.rename l.dst l.prev (remove f.removePrev l.prev fs) = (true, fs) := by
            rw [hkept, hr, halias, rename_self hold]
          exact finish_restores_iff (backUp_moved l hu hs hold hmove) hnew (iff_of_true hold trivial) (hsame fs)
            (fun _ => rfl)
        | true =>
          have hmove : Lib.Files.rename f.rename l.dst l.prev (remove f.removePrev l.prev fs) = (false, fs) := by
            rw [hkept, hr, rename_fault]
          -- a copy that opened nothing leaves the binary where it is
          have hunopened (hcopy : copyFile f.backup l.dst l.prev fs = (false, fs)) :
              Restores l f old new (finish l f fs) :=
            (stopped_restores_iff l (backUp_failed l hu hs hold hmove hcopy)).mpr hold
          cases hb : f.backup with
          | openSrc => exact iff_of_true (hunopened (copyFile_unopened (by rw [hb]; rfl) _ _ _)) trivial
          | openDst => exact iff_of_true (hunopened (copyFile_unopened (by rw [hb]; rfl) _ _ _)) trivial
          | write n =>
            have hcopy : copyFile f.backup l.dst l.prev fs = (false, Function.update fs l.dst (some [])) := by
              simp [copyFile, hb, halias, hold]
            rw [stopped_restores_iff l (backUp_failed l hu hs hold hmove hcopy), Function.update_self, Option.some.injEq]
            exact eq_comm
          | none =>
            have hcopy : copyFile f.backup l.dst l.prev fs = (true, Function.update fs l.dst (some [])) := by
              simp [copyFile, hb, halias, hold]
            refine finish_restores_iff (backUp_copied l hu hs hold hmove hcopy) ?_ ?_ (hsame _) (fun _ => rfl)
            · rw [remove_of_ne _ hsrc, Function.update_of_ne hsrc, hnew]
            · rw [remove_self, Function.update_self]
              cases f.removeDst <;> simp [eq_comm]

end BackUp

/-! ## One update -/

/-- An update that is reported as failed leaves the previous binary in its place, where the
    operations of its roll-back succeed, and one that is reported as done the new binary,
    exactly for the failures that do no harm. -/
theorem swap_restores_iff (l : Layout P) (f : Faults) (fs : FS P) (old new : Bytes) :
    Restores l f old new (finish l f (initially l fs old new)) ↔
      if l.prev = l.dst then HarmlessAlias f old new else Harmless f old new (fs l.prev) := by
  have hnew : initially l fs old new l.src = some new := Function.update_self _ _ _
  have hold : initially l fs old new l.dst = some old := by
    unfold initially
    rw [Function.update_of_ne l.src_ne_dst.symm, Function.update_self]
  split
  · rename_i halias
    exact harmlessAlias_iff halias hold hnew
  · rename_i hprev
    have hbefore : initially l fs old new l.prev = fs l.prev := by
      unfold initially
      rw [Function.update_of_ne l.src_ne_prev.symm, Function.update_of_ne hprev]
    rw [harmless_iff hprev hold hnew, hbefore]

/-- The disk is full after the first byte of the new binary: the error is reported, and the
    binary is that byte, with the previous one next to it. -/
theorem full_disk_leaves_part :
    let l : Layout (Fin 3) := ⟨0, 1, 2, by decide, by decide⟩
    let r := finish l { Faults.nothing with install := .write 1 } (initially l (fun _ => none) [1, 2, 3] [7, 8, 9])
    r.1 = .swapFailed ∧ r.2 l.dst = some [7] ∧ r.2 l.prev = some [1, 2, 3] := by
  decide

end EliteTelemetry.Updater
