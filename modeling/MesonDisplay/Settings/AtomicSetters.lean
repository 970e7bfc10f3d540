/-
  MesonDisplay.Settings.AtomicSetters — what the setters commit.

  A setter should commit its request only if all that was asked of it is in the
  request.  `CommitsOnly` says so of a function; the setters that are
  `atomicSetter` with a list of changes meet it whatever the libraries answer.
  `setDisplayMode` does not: it goes on after a mode that could not be added,
  and takes a `drmSetMaster` that failed for one that succeeded.

  Main results:
    * `commitsOnly_atomicSetter_iff` — what is committed is what was added.
    * `masterLoop_ends` — the three ways out of the loop that becomes the
      master.
    * `all_or_nothing_iff` — when a setter commits only what was asked of it.
-/
import Mathlib.Data.List.Forall2
import MesonDisplay.Settings.Calls

namespace MesonDisplay.Settings

variable {α β : Type} {env : Env} {w : World}

/-! ## §1. What may be committed. -/

/-- These changes were made, in this order, and none of them failed. -/
def AllAdded (calls : List MesonSet) (log : List DrmEvent) : Prop :=
  List.Forall₂ (fun call event => ∃ result, event = .set call result ∧ result ≠ -1) calls log

/-- The mode was added, or for a dummy connector its fallback. -/
def ModeAdded (modeInfo : DisplayModeInfo) (connType : ConnectorType) (log : List DrmEvent) :
    Prop :=
  (∃ result, .set (.changeMode (some modeInfo) connType) result ∈ log ∧ result ≠ -1) ∨
    connType = .dummy ∧ ∃ result, .set (dummyFallback modeInfo) result ∈ log ∧ result ≠ -1

/-- The process is the master behind this answer; `drmSetMaster` returns 0 on
success. -/
def DrmEvent.TellsMaster : DrmEvent → Prop
  | .isMaster result => result ≠ 0
  | .setMaster result => result = 0
  | _ => False

/-- The last answer is that the process is the master. -/
def BecameMaster (log : List DrmEvent) : Prop :=
  ∃ before event, log = before ++ [event] ∧ event.TellsMaster

/-- What has to be in the log when the setter commits. -/
def AtomicSetter.Requested : AtomicSetter → List DrmEvent → Prop
  | .hdcpEnable enable connType, log => AllAdded [.hdcpEnable enable connType] log
  | .avMute mute connType, log => AllAdded [.avMute mute connType] log
  | .colorSpacedDepth colorDepth colorSpace connType, log =>
      AllAdded [.colorDepth colorDepth connType,
        .colorSpace (mesonColorSpace colorSpace) connType] log
  | .hdrPolicy policy connType, log =>
      AllAdded [.hdrPolicy (mesonHdrPolicy policy) connType,
        .hdrForceMode (mesonForceMode policy) connType] log
  | .hdcpContentType type connType, log => AllAdded [.hdcpContentType type connType] log
  | .dvEnable enable connType, log => AllAdded [.dvEnable enable connType] log
  | .active value connType, log => AllAdded [.active value connType] log
  | .vrrEnabled vrrEnable connType, log => AllAdded [.vrrEnabled vrrEnable connType] log
  | .mode none _, _ => False
  | .mode (some modeInfo) connType, log => ModeAdded modeInfo connType log ∧ BecameMaster log
  | .autoMode connType, log => ∃ modeInfo, AllAdded [.changeMode modeInfo connType] log
  | .aspectRatioValue ratio connType, log =>
      AllAdded [.aspectRatioValue (mesonAspectRatio ratio) connType] log
  | .modeAttr modeInfo colorDepth colorSpace connType, log =>
      AllAdded [.changeMode modeInfo connType, .colorDepth colorDepth connType,
        .colorSpace (.cast colorSpace) connType] log
  | .functionAttribute modeInfo policy colorDepth colorSpace fracRate connType, log =>
      AllAdded [.changeMode modeInfo connType, .hdrPolicy (mesonHdrPolicy policy) connType,
        .hdrForceMode (mesonForceMode policy) connType, .colorDepth colorDepth connType,
        .colorSpace (mesonColorSpace colorSpace) connType, .fracRatePolicy fracRate connType] log
  | .backGroundColor red green blue connType, log =>
      AllAdded [.backGroundColor (MesonDisplay.Settings.backGroundColor red green blue) connType]
        log
  | .dvMode value connType, log => AllAdded [.dvMode value connType] log
  | .cvbsAVMute mute, log => AllAdded [.cvbsAVMute mute .cvbs] log

/-- The function returns.  It commits only behind a good log, and returns 0 only
if its commit, the last it does, returned 0. -/
def CommitsOnly (good : List DrmEvent → Prop) (p : Meson Int) (env : Env) (w : World) : Prop :=
  ∃ ret w' log, p env w = .ok (ret, w') ∧ w'.events = w.events ++ log ∧
    (∀ before result after, log = before ++ .commit result :: after → good before) ∧
    (ret = 0 → ∃ before, log = before ++ [.commit 0])

/-- The setter is all or nothing. -/
def AtomicSetter.AllOrNothing (env : Env) (w : World) (setter : AtomicSetter) : Prop :=
  CommitsOnly setter.Requested setter.run env w

/-! ## §2. Functions that change nothing. -/

/-- Nothing was recorded between. -/
def SameEvents (w w' : World) : Prop := w'.events = w.events

theorem SameEvents.refl (w : World) : SameEvents w w := rfl

theorem SameEvents.trans {w₁ w₂ w₃ : World} (h : SameEvents w₁ w₂) (h' : SameEvents w₂ w₃) :
    SameEvents w₁ w₃ := Eq.trans h' h

/-- The function returns, and asks for no change. -/
def Silent (p : Meson α) (env : Env) (w : World) : Prop := Does SameEvents p env w

theorem silent_bind {p : Meson α} {f : α → Meson β} (hp : Silent p env w)
    (hf : ∀ a w', Silent (f a) env w') : Silent (p >>= f) env w :=
  does_bind (R := SameEvents) SameEvents.trans hp fun a w' _ => hf a w'

theorem silent_pure (a : α) : Silent (pure a : Meson α) env w :=
  does_pure SameEvents.refl a

theorem silent_get (call : MesonGet α) : Silent (mesonGet call) env w := ⟨_, _, rfl, rfl⟩

theorem silent_close (fd : Int) : Silent (mesonCloseDrm fd) env w := by
  unfold Silent Does mesonCloseDrm
  split_ifs
  · exact ⟨_, _, rfl, rfl⟩
  · exact ⟨_, _, rfl, rfl⟩

/-- Opening a card is one call of the world. -/
theorem openCard_silent (env : Env) (w : World) :
    ∃ fd w', openCard env w = .ok (fd, w') ∧ w'.events = w.events ∧ w'.time = w.time + 1 := by
  unfold openCard
  split_ifs
  · exact ⟨_, _, rfl, rfl, rfl⟩
  · exact ⟨_, _, rfl, rfl, rfl⟩

theorem silent_open : Silent openCard env w := by
  obtain ⟨fd, w₁, hrun, hevents, -⟩ := openCard_silent env w
  exact ⟨fd, w₁, hrun, hevents⟩

theorem silent_getter (call : MesonGet α) (result : α → β) :
    Silent (getter call result) env w := by
  refine silent_bind silent_open fun fd _ => ?_
  refine silent_bind (silent_get call) fun value _ => ?_
  exact silent_bind (silent_close fd) fun _ _ => silent_pure _

theorem silent_modeAttrSupportedCheck (modeName : Option String) (colorSpace : ColorSpace)
    (colorDepth : Nat) (connType : ConnectorType) :
    Silent (modeAttrSupportedCheck modeName colorSpace colorDepth connType) env w := by
  rcases modeAttrSupportedCheck_eq modeName colorSpace colorDepth connType with h | ⟨_, _, h⟩
  · rw [h]
    exact silent_pure _
  · rw [h]
    exact silent_getter _ _

/-! ## §3. Functions that commit. -/

variable {good : List DrmEvent → Prop}

/-- The commit behind such a log is the only one. -/
theorem before_commit {log before after : List DrmEvent} {result result' : Int}
    (hlog : ∀ r, .commit r ∉ log)
    (h : log ++ [.commit result] = before ++ .commit result' :: after) : before = log := by
  rcases List.append_eq_append_iff.mp h with ⟨mid, hbefore, hmid⟩ | ⟨mid, hfirst, hmid⟩
  · cases mid with
    | nil => rw [hbefore, List.append_nil]
    | cons event mid => exact absurd (congrArg List.length hmid) (by simp)
  · cases mid with
    | nil => rw [hfirst, List.append_nil]
    | cons event mid =>
        obtain ⟨rfl, -⟩ := List.cons.inj hmid
        exact absurd (hfirst ▸ List.mem_append_right _ List.mem_cons_self) (hlog result')

/-- A function that did not commit. -/
theorem commitsOnly_of_noCommit {p : Meson Int} {ret : Int} {w₁ : World} {log : List DrmEvent}
    (hrun : p env w = .ok (ret, w₁)) (hevents : w₁.events = w.events ++ log)
    (hno : ∀ r, .commit r ∉ log) (hret : ret ≠ 0) : CommitsOnly good p env w := by
  refine ⟨ret, w₁, log, hrun, hevents, ?_, fun h => absurd h hret⟩
  intro before result after heq
  have hmem : .commit result ∈ log := by
    rw [heq]
    simp
  exact absurd hmem (hno result)

/-- A function that ended with its commit. -/
theorem commitsOnly_of_commit {p : Meson Int} {w₁ : World} {log : List DrmEvent}
    (hrun : p env w = drmModeAtomicCommit env w₁) (hevents : w₁.events = w.events ++ log)
    (hno : ∀ r, .commit r ∉ log) : CommitsOnly good p env w ↔ good log := by
  have hend : (w₁.record (.commit (env.commit w₁.time))).events =
      w.events ++ (log ++ [.commit (env.commit w₁.time)]) := by
    rw [World.record_events, hevents, List.append_assoc]
  constructor
  · rintro ⟨ret, w', log', heq, hlog', hgood, -⟩
    obtain ⟨rfl, rfl⟩ := Prod.mk.inj (Except.ok.inj (hrun.symm.trans heq))
    exact hgood log (env.commit w₁.time) [] (List.append_cancel_left (hlog'.symm.trans hend))
  · intro hgood
    refine ⟨env.commit w₁.time, _, _, hrun, hend, ?_, fun hzero => ⟨log, by rw [hzero]⟩⟩
    intro before result after heq
    rw [before_commit hno heq]
    exact hgood

theorem commitsOnly_pure {ret : Int} (hret : ret ≠ 0) : CommitsOnly good (pure ret) env w :=
  commitsOnly_of_noCommit rfl (List.append_nil _).symm (by simp) hret

/-- What changes nothing may stand before. -/
theorem commitsOnly_silent_bind {p : Meson α} {f : α → Meson Int} {a : α} {w₁ : World}
    (hp : p env w = .ok (a, w₁)) (hevents : w₁.events = w.events) :
    CommitsOnly good (p >>= f) env w ↔ CommitsOnly good (f a) env w₁ := by
  unfold CommitsOnly
  rw [bind_ok hp, hevents]

/-- The close of the card may stand behind. -/
theorem commitsOnly_close {p : Meson Int} (fd : Int)
    (hp : ∃ ret w', p env w = .ok (ret, w')) :
    CommitsOnly good (p >>= fun ret => mesonCloseDrm fd >>= fun _ => pure ret) env w ↔
      CommitsOnly good p env w := by
  obtain ⟨ret, w₁, hrun⟩ := hp
  have hsilent : Silent (mesonCloseDrm fd) env w₁ := silent_close fd
  obtain ⟨u, w₂, hclose, hevents⟩ := hsilent
  have hend : (p >>= fun ret => mesonCloseDrm fd >>= fun _ => pure ret) env w = .ok (ret, w₂) := by
    rw [bind_ok hrun, bind_ok hclose]
    rfl
  unfold CommitsOnly
  rw [hend, hrun]
  constructor
  · rintro ⟨ret', w', log, heq, hlog, hbefore, hzero⟩
    obtain ⟨rfl, rfl⟩ := Prod.mk.inj (Except.ok.inj heq)
    exact ⟨ret, w₁, log, rfl, Eq.trans (Eq.symm hevents) hlog, hbefore, hzero⟩
  · rintro ⟨ret', w', log, heq, hlog, hbefore, hzero⟩
    obtain ⟨rfl, rfl⟩ := Prod.mk.inj (Except.ok.inj heq)
    exact ⟨ret, w₂, log, rfl, Eq.trans hevents hlog, hbefore, hzero⟩

/-- What was done up to the commit: it returned `added`, and there was no commit
yet. -/
structure Adds (add : Meson Bool) (env : Env) (w : World) (added : Bool) (log : List DrmEvent) :
    Prop where
  returns : ∃ w', add env w = .ok (added, w') ∧ w'.events = w.events ++ log
  noCommit : ∀ result, .commit result ∉ log

theorem addAndCommit_false {add : Meson Bool} :
    addAndCommit false add = (pure (-1) : Meson Int) := rfl

theorem addAndCommit_true {add : Meson Bool} {added : Bool} {log : List DrmEvent}
    (h : Adds add env w added log) :
    ∃ w₁, w₁.events = w.events ++ log ∧
      addAndCommit true add env w =
        (if added then drmModeAtomicCommit else pure (-1)) env w₁ := by
  obtain ⟨w₁, hrun, hevents⟩ := h.returns
  exact ⟨w₁, hevents, bind_ok hrun⟩

theorem commitsOnly_addAndCommit_iff {add : Meson Bool} {added : Bool} {log : List DrmEvent}
    (h : Adds add env w added log) :
    CommitsOnly good (addAndCommit true add) env w ↔ (added = true → good log) := by
  obtain ⟨w₁, hevents, hrun⟩ := addAndCommit_true h
  cases added with
  | false =>
      refine iff_of_true ?_ (by simp)
      exact commitsOnly_of_noCommit hrun hevents h.noCommit (by decide)
  | true =>
      rw [commitsOnly_of_commit hrun hevents h.noCommit]
      simp

theorem addAndCommit_returns {add : Meson Bool} {added : Bool} {log : List DrmEvent}
    (h : Adds add env w added log) (req : Bool) :
    ∃ ret w', addAndCommit req add env w = .ok (ret, w') := by
  cases req with
  | false => exact ⟨_, _, rfl⟩
  | true =>
      obtain ⟨w₁, -, hrun⟩ := addAndCommit_true h
      rw [hrun]
      cases added with
      | false => exact ⟨_, _, rfl⟩
      | true => exact ⟨_, _, rfl⟩

/-- **What is committed is what was added.**  Two calls of the world, to open
the card and to get the request, come before the first change. -/
theorem commitsOnly_atomicSetter_iff {add : Meson Bool} {P : Prop}
    (hadd : ∀ w₁ : World, w₁.time = w.time + 2 →
      ∃ added log, Adds add env w₁ added log ∧ (P ↔ (added = true → good log))) :
    CommitsOnly good (atomicSetter add) env w ↔ (env.allocOk (w.time + 1) = true → P) := by
  obtain ⟨fd, w₁, hopen, hevents, htime⟩ := openCard_silent env w
  obtain ⟨added, log, hadds, hP⟩ := hadd w₁.tick (by rw [World.tick_time, htime])
  have halloc : alloc env w₁ = .ok (env.allocOk w₁.time, w₁.tick) := rfl
  unfold atomicSetter displayMesonSetOpen
  rw [commitsOnly_silent_bind hopen hevents, commitsOnly_silent_bind halloc rfl,
    commitsOnly_close fd (addAndCommit_returns hadds _), ← htime]
  cases env.allocOk w₁.time with
  | false =>
      rw [addAndCommit_false]
      exact iff_of_true (commitsOnly_pure (by decide)) (by simp)
  | true =>
      rw [commitsOnly_addAndCommit_iff hadds, ← hP]
      simp

/-! ## §4. Lists of changes. -/

/-- The changes are made at every time, and if the function says so, none of
them failed. -/
def AddsAll (calls : List MesonSet) (add : Meson Bool) (env : Env) : Prop :=
  ∀ w, ∃ added log, Adds add env w added log ∧ (added = true → AllAdded calls log)

theorem addsAll_addInTurn (calls : List MesonSet) : AddsAll calls (addInTurn calls) env := by
  induction calls with
  | nil => exact fun w => ⟨true, [], ⟨⟨w, rfl, by simp⟩, by simp⟩, fun _ => .nil⟩
  | cons call calls ih =>
      intro w
      let w₁ : World := w.record (.set call (env.set call w.time))
      have hset : mesonSet call env w = .ok (env.set call w.time, w₁) := rfl
      by_cases hres : env.set call w.time = -1
      · refine ⟨false, [.set call (env.set call w.time)], ⟨⟨w₁, ?_, rfl⟩, by simp⟩, by simp⟩
        unfold addInTurn
        rw [bind_ok hset, if_pos hres]
        rfl
      · obtain ⟨added, log, ⟨⟨w₂, hrun, hevents⟩, hno⟩, hadded⟩ := ih w₁
        refine ⟨added, .set call (env.set call w.time) :: log, ⟨⟨w₂, ?_, ?_⟩, ?_⟩, ?_⟩
        · unfold addInTurn
          rw [bind_ok hset, if_neg hres]
          exact hrun
        · rw [hevents]
          simp [w₁]
        · intro result hmem
          exact hno result (by simpa using hmem)
        · intro h
          exact .cons ⟨_, rfl, hres⟩ (hadded h)

theorem addsAll_addAll (calls : List MesonSet) : AddsAll calls (addAll calls) env := by
  induction calls with
  | nil => exact fun w => ⟨true, [], ⟨⟨w, rfl, by simp⟩, by simp⟩, fun _ => .nil⟩
  | cons call calls ih =>
      intro w
      let w₁ : World := w.record (.set call (env.set call w.time))
      have hset : mesonSet call env w = .ok (env.set call w.time, w₁) := rfl
      obtain ⟨rest, log, ⟨⟨w₂, hrun, hevents⟩, hno⟩, hadded⟩ := ih w₁
      refine ⟨decide (env.set call w.time ≠ -1) && rest, .set call (env.set call w.time) :: log,
        ⟨⟨w₂, ?_, ?_⟩, ?_⟩, ?_⟩
      · unfold addAll
        rw [bind_ok hset, bind_ok hrun]
        rfl
      · rw [hevents]
        simp [w₁]
      · intro result hmem
        exact hno result (by simpa using hmem)
      · intro h
        obtain ⟨hres, hrest⟩ := Bool.and_eq_true_iff.mp h
        exact .cons ⟨_, rfl, of_decide_eq_true hres⟩ (hadded hrest)

theorem commitsOnly_atomicSetter {calls : List MesonSet} {add : Meson Bool}
    (hadd : AddsAll calls add env) : CommitsOnly (AllAdded calls) (atomicSetter add) env w := by
  refine (commitsOnly_atomicSetter_iff (P := True) fun w₁ _ => ?_).mpr fun _ => trivial
  obtain ⟨added, log, hadds, hall⟩ := hadd w₁
  exact ⟨added, log, hadds, iff_of_true trivial hall⟩

theorem commitsOnly_atomicSetterAllocFirst {calls : List MesonSet} {add : Meson Bool}
    (hadd : AddsAll calls add env) :
    CommitsOnly (AllAdded calls) (atomicSetterAllocFirst add) env w := by
  have halloc : alloc env w = .ok (env.allocOk w.time, w.tick) := rfl
  unfold atomicSetterAllocFirst
  rw [commitsOnly_silent_bind halloc rfl]
  split_ifs
  · obtain ⟨fd, w₂, hopen, hevents, -⟩ := openCard_silent env w.tick
    obtain ⟨added, log, hadds, hall⟩ := hadd w₂
    unfold displayMesonSetOpen
    rw [commitsOnly_silent_bind hopen hevents,
      commitsOnly_close fd (addAndCommit_returns hadds true), commitsOnly_addAndCommit_iff hadds]
    exact hall
  · have hsilent : Silent (mesonCloseDrm 0) env w.tick := silent_close 0
    obtain ⟨u, w₂, hclose, hevents⟩ := hsilent
    rw [commitsOnly_silent_bind hclose hevents]
    exact commitsOnly_pure (by decide)

/-! ## §5. The loop that becomes the master. -/

/-- One of the first attempts is such, and all before it are otherwise. -/
def FirstAt (attempts : Nat) (P Q : Nat → Prop) : Prop :=
  ∃ k, k < attempts ∧ P k ∧ ∀ j < k, Q j

theorem firstAt_zero {P Q : Nat → Prop} : ¬ FirstAt 0 P Q := by
  rintro ⟨k, hk, -⟩
  omega

theorem firstAt_succ {attempts : Nat} {P Q : Nat → Prop} :
    FirstAt (attempts + 1) P Q ↔
      P 0 ∨ Q 0 ∧ FirstAt attempts (fun k => P (k + 1)) fun k => Q (k + 1) := by
  constructor
  · rintro ⟨k, hk, hP, hQ⟩
    cases k with
    | zero => exact .inl hP
    | succ k =>
        refine .inr ⟨hQ 0 (by omega), k, by omega, hP, ?_⟩
        exact fun j hj => hQ (j + 1) (by omega)
  · rintro (hP | ⟨hQ₀, k, hk, hP, hQ⟩)
    · exact ⟨0, by omega, hP, fun j hj => absurd hj (by omega)⟩
    · refine ⟨k + 1, by omega, hP, ?_⟩
      intro j hj
      cases j with
      | zero => exact hQ₀
      | succ j => exact hQ j (by omega)

/-- The call with which attempt `k` begins, if the first begins with `time`. -/
def attemptTime (time k : Nat) : Nat := time + 2 * k

theorem attemptTime_zero (time : Nat) : attemptTime time 0 = time := rfl

theorem attemptTime_succ (time k : Nat) : attemptTime time (k + 1) = attemptTime (time + 2) k := by
  unfold attemptTime
  omega

/-- The attempt does not end the loop: `drmSetMaster` is 0. -/
def Retried (env : Env) (time k : Nat) : Prop :=
  env.isMaster (attemptTime time k) = 0 ∧ env.setMaster (attemptTime time k + 1) = 0

/-- `drmIsMaster` ends the loop. -/
def AlreadyMaster (env : Env) (time attempts : Nat) : Prop :=
  FirstAt attempts (fun k => env.isMaster (attemptTime time k) ≠ 0) (Retried env time)

/-- A `drmSetMaster` that fails ends the loop. -/
def SetMasterFails (env : Env) (time attempts : Nat) : Prop :=
  FirstAt attempts (fun k => env.isMaster (attemptTime time k) = 0 ∧
    env.setMaster (attemptTime time k + 1) ≠ 0) (Retried env time)

theorem alreadyMaster_succ {time attempts : Nat} :
    AlreadyMaster env time (attempts + 1) ↔
      env.isMaster time ≠ 0 ∨ Retried env time 0 ∧ AlreadyMaster env (time + 2) attempts := by
  unfold AlreadyMaster
  rw [firstAt_succ]
  simp only [Retried, attemptTime_zero, attemptTime_succ]
  exact Iff.rfl

theorem setMasterFails_succ {time attempts : Nat} :
    SetMasterFails env time (attempts + 1) ↔
      (env.isMaster time = 0 ∧ env.setMaster (time + 1) ≠ 0) ∨
        Retried env time 0 ∧ SetMasterFails env (time + 2) attempts := by
  unfold SetMasterFails
  rw [firstAt_succ]
  simp only [Retried, attemptTime_zero, attemptTime_succ]
  exact Iff.rfl

/-- How the loop ended: the attempts were used up, or its last answer is that
the process is the master, or that `drmSetMaster` failed. -/
def LoopEnd (env : Env) (time attempts : Nat) (found : Bool) (log : List DrmEvent) : Prop :=
  if found then
    ∃ before event, log = before ++ [event] ∧
      (event.TellsMaster ∧ AlreadyMaster env time attempts ∧ ¬ SetMasterFails env time attempts ∨
        ¬ event.TellsMaster ∧ SetMasterFails env time attempts)
  else ¬ AlreadyMaster env time attempts ∧ ¬ SetMasterFails env time attempts

/-- After an attempt that did not end it, the loop ends as it does from there. -/
theorem loopEnd_retried {time attempts : Nat} {found : Bool} {log : List DrmEvent}
    (events : List DrmEvent) (h : Retried env time 0)
    (hend : LoopEnd env (time + 2) attempts found log) :
    LoopEnd env time (attempts + 1) found (events ++ log) := by
  have halready : AlreadyMaster env time (attempts + 1) ↔ AlreadyMaster env (time + 2) attempts := by
    rw [alreadyMaster_succ]
    exact ⟨fun h' => h'.elim (absurd h.1) And.right, fun h' => .inr ⟨h, h'⟩⟩
  have hfails : SetMasterFails env time (attempts + 1) ↔
      SetMasterFails env (time + 2) attempts := by
    rw [setMasterFails_succ]
    exact ⟨fun h' => h'.elim (fun hf => absurd h.2 hf.2) And.right, fun h' => .inr ⟨h, h'⟩⟩
  unfold LoopEnd at hend ⊢
  rw [halready, hfails]
  split_ifs at hend ⊢
  · obtain ⟨before, event, rfl, hevent⟩ := hend
    exact ⟨events ++ before, event, (List.append_assoc ..).symm, hevent⟩
  · exact hend

theorem loopEnd_alreadyMaster {time attempts : Nat} (h : env.isMaster time ≠ 0) :
    LoopEnd env time (attempts + 1) true [.isMaster (env.isMaster time)] := by
  refine ⟨[], _, rfl, .inl ⟨h, alreadyMaster_succ.mpr (.inl h), ?_⟩⟩
  rw [setMasterFails_succ]
  rintro (hf | hf)
  · exact h hf.1
  · exact h hf.1.1

theorem loopEnd_setMasterFails {time attempts : Nat} (h : env.isMaster time = 0)
    (h' : env.setMaster (time + 1) ≠ 0) :
    LoopEnd env time (attempts + 1) true
      [.isMaster (env.isMaster time), .setMaster (env.setMaster (time + 1))] :=
  ⟨[.isMaster (env.isMaster time)], _, rfl, .inr ⟨h', setMasterFails_succ.mpr (.inl ⟨h, h'⟩)⟩⟩

/-- **The three ways out of the loop.** -/
theorem masterLoop_ends (attempts : Nat) :
    ∀ w, ∃ found log, Adds (masterLoop attempts) env w found log ∧
      (∀ call result, .set call result ∉ log) ∧ LoopEnd env w.time attempts found log := by
  induction attempts with
  | zero =>
      intro w
      exact ⟨false, [], ⟨⟨w, rfl, by simp⟩, by simp⟩, by simp, firstAt_zero, firstAt_zero⟩
  | succ attempts ih =>
      intro w
      let w₁ : World := w.record (.isMaster (env.isMaster w.time))
      let w₂ : World := w₁.record (.setMaster (env.setMaster (w.time + 1)))
      have hask : drmIsMaster env w = .ok (env.isMaster w.time, w₁) := rfl
      have hset : drmSetMaster env w₁ = .ok (env.setMaster (w.time + 1), w₂) := rfl
      unfold masterLoop
      by_cases hmaster : env.isMaster w.time = 0
      · by_cases hfail : env.setMaster (w.time + 1) = 0
        · -- another attempt
          obtain ⟨found, log, ⟨⟨w₃, hrun, hevents⟩, hno⟩, hnoSet, hend⟩ := ih w₂
          refine ⟨found, [.isMaster (env.isMaster w.time), .setMaster (env.setMaster (w.time + 1))]
            ++ log, ⟨⟨w₃, ?_, ?_⟩, ?_⟩, ?_, loopEnd_retried _ ⟨hmaster, hfail⟩ hend⟩
          · rw [bind_ok hask, if_neg (not_not.mpr hmaster), bind_ok hset,
              if_neg (not_not.mpr hfail)]
            exact hrun
          · rw [hevents]
            simp [w₁, w₂]
          · intro result hmem
            exact hno result (by simpa using hmem)
          · intro call result hmem
            exact hnoSet call result (by simpa using hmem)
        · refine ⟨true, _, ⟨⟨w₂, ?_, ?_⟩, ?_⟩, ?_, loopEnd_setMasterFails hmaster hfail⟩
          · rw [bind_ok hask, if_neg (not_not.mpr hmaster), bind_ok hset, if_pos hfail]
            rfl
          · simp [w₁, w₂]
          · simp
          · simp
      · refine ⟨true, _, ⟨⟨w₁, ?_, rfl⟩, ?_⟩, ?_, loopEnd_alreadyMaster hmaster⟩
        · rw [bind_ok hask, if_pos hmaster]
          rfl
        · simp
        · simp

/-! ## §6. setDisplayMode. -/

theorem becameMaster_iff {before : List DrmEvent} {event : DrmEvent} :
    BecameMaster (before ++ [event]) ↔ event.TellsMaster := by
  constructor
  · rintro ⟨before', event', h, htells⟩
    obtain ⟨-, hevent⟩ := List.append_inj' h rfl
    obtain rfl : event = event' := List.singleton_injective hevent
    exact htells
  · exact fun h => ⟨before, event, rfl, h⟩

/-- The answers of the loop are no changes. -/
theorem modeAdded_append {modeInfo : DisplayModeInfo} {connType : ConnectorType}
    {changes log : List DrmEvent} (hlog : ∀ call result, .set call result ∉ log) :
    ModeAdded modeInfo connType (changes ++ log) ↔ ModeAdded modeInfo connType changes := by
  simp only [ModeAdded, List.mem_append, hlog, or_false]

/-- What the loop commits to: the change was made, and the loop did not end with
a `drmSetMaster` that failed. -/
theorem loopEnd_iff {time attempts : Nat} {found : Bool} {log changes : List DrmEvent} {P : Prop}
    (hend : LoopEnd env time attempts found log) :
    (found = true → P ∧ BecameMaster (changes ++ log)) ↔
      ¬ SetMasterFails env time attempts ∧ (P ∨ ¬ AlreadyMaster env time attempts) := by
  unfold LoopEnd at hend
  split_ifs at hend with hfound
  · obtain ⟨before, event, rfl, hevent⟩ := hend
    rw [← List.append_assoc, becameMaster_iff]
    rcases hevent with ⟨htells, halready, hfails⟩ | ⟨htells, hfails⟩
    · simp [hfound, htells, halready, hfails]
    · simp [hfound, htells, hfails]
  · simp [hfound, hend.1, hend.2]

/-- What `setDisplayMode` needs, where `time` is the number of the first change:
a `drmSetMaster` that failed does not end the loop, and a mode that could not be
added is not committed by a process that is the master. -/
def ModeGuard (env : Env) (time : Nat) (modeInfo : DisplayModeInfo) (connType : ConnectorType) :
    Prop :=
  if env.set (.changeMode (some modeInfo) connType) time ≠ -1 then
    ¬ SetMasterFails env (time + 1) maxRetry
  else if connType ≠ .dummy then
    ¬ SetMasterFails env (time + 1) maxRetry ∧ ¬ AlreadyMaster env (time + 1) maxRetry
  else if env.set (dummyFallback modeInfo) (time + 1) ≠ -1 then
    ¬ SetMasterFails env (time + 2) maxRetry
  else True

/-- What the change of the mode leaves in the log. -/
def changeEvent (env : Env) (time : Nat) (modeInfo : DisplayModeInfo) (connType : ConnectorType) :
    DrmEvent :=
  .set (.changeMode (some modeInfo) connType) (env.set (.changeMode (some modeInfo) connType) time)

/-- What the change to the fallback leaves in the log. -/
def fallbackEvent (env : Env) (time : Nat) (modeInfo : DisplayModeInfo) : DrmEvent :=
  .set (dummyFallback modeInfo) (env.set (dummyFallback modeInfo) time)

theorem addMode_once {modeInfo : DisplayModeInfo} {connType : ConnectorType}
    (h : ¬ (env.set (.changeMode (some modeInfo) connType) w.time = -1 ∧ connType = .dummy)) :
    addMode modeInfo connType env w =
      .ok (true, w.record (changeEvent env w.time modeInfo connType)) := by
  unfold addMode
  refine (bind_ok rfl).trans ?_
  rw [if_neg h]
  rfl

theorem addMode_fallback {modeInfo : DisplayModeInfo} {connType : ConnectorType}
    (hres : env.set (.changeMode (some modeInfo) connType) w.time = -1)
    (hdummy : connType = .dummy) :
    addMode modeInfo connType env w =
      .ok (decide (env.set (dummyFallback modeInfo) (w.time + 1) ≠ -1),
        (w.record (changeEvent env w.time modeInfo connType)).record
          (fallbackEvent env (w.time + 1) modeInfo)) := by
  unfold addMode
  refine (bind_ok rfl).trans ?_
  rw [if_pos ⟨hres, hdummy⟩]
  rfl

/-- Behind the changes, what the loop answers decides. -/
theorem addsMode_of_added {modeInfo : DisplayModeInfo} {connType : ConnectorType} {w₁ : World}
    {changes : List DrmEvent} {time : Nat}
    (hadd : addMode modeInfo connType env w = .ok (true, w₁)) (htime : w₁.time = time)
    (hevents : w₁.events = w.events ++ changes) (hno : ∀ result, .commit result ∉ changes) :
    ∃ added log, Adds (addModeAsMaster modeInfo connType) env w added log ∧
      ((added = true → ModeAdded modeInfo connType log ∧ BecameMaster log) ↔
        ¬ SetMasterFails env time maxRetry ∧
          (ModeAdded modeInfo connType changes ∨ ¬ AlreadyMaster env time maxRetry)) := by
  subst htime
  obtain ⟨found, log, ⟨⟨w₂, hrun, hlog⟩, hnoLog⟩, hnoSet, hend⟩ := masterLoop_ends maxRetry w₁
  refine ⟨found, changes ++ log, ⟨⟨w₂, ?_, ?_⟩, ?_⟩, ?_⟩
  · exact (bind_ok hadd).trans hrun
  · rw [hlog, hevents, List.append_assoc]
  · intro result hmem
    exact (List.mem_append.mp hmem).elim (hno result) (hnoLog result)
  · rw [modeAdded_append hnoSet]
    exact loopEnd_iff hend

/-- Without its fallback nothing is committed. -/
theorem addsMode_of_not_added {modeInfo : DisplayModeInfo} {connType : ConnectorType} {w₁ : World}
    {changes : List DrmEvent} (hadd : addMode modeInfo connType env w = .ok (false, w₁))
    (hevents : w₁.events = w.events ++ changes) (hno : ∀ result, .commit result ∉ changes) :
    Adds (addModeAsMaster modeInfo connType) env w false changes :=
  ⟨⟨w₁, bind_ok hadd, hevents⟩, hno⟩

theorem addModeAsMaster_iff (modeInfo : DisplayModeInfo) (connType : ConnectorType) :
    ∃ added log, Adds (addModeAsMaster modeInfo connType) env w added log ∧
      (ModeGuard env w.time modeInfo connType ↔
        (added = true → ModeAdded modeInfo connType log ∧ BecameMaster log)) := by
  let changed := changeEvent env w.time modeInfo connType
  let fellBack := fallbackEvent env (w.time + 1) modeInfo
  unfold ModeGuard
  split_ifs with hres hdummy hfallback
  · -- the mode was added
    obtain ⟨added, log, hadds, hiff⟩ :=
      addsMode_of_added (addMode_once fun h => hres h.1) rfl rfl (by simp [changeEvent])
    have hmade : ModeAdded modeInfo connType [changed] := .inl ⟨_, List.mem_cons_self, hres⟩
    refine ⟨added, log, hadds, ?_⟩
    rw [hiff, and_iff_left (.inl hmade)]
    rfl
  · -- it was not, and the function goes on
    obtain ⟨added, log, hadds, hiff⟩ :=
      addsMode_of_added (addMode_once fun h => hdummy h.2) rfl rfl (by simp [changeEvent])
    have hlost : ¬ ModeAdded modeInfo connType [changed] := by
      simp [ModeAdded, changed, changeEvent, hdummy, not_not.mp hres]
    refine ⟨added, log, hadds, ?_⟩
    rw [hiff, or_iff_right hlost]
    rfl
  · -- the fallback was added
    have hadd := addMode_fallback (not_not.mp hres) (not_not.mp hdummy)
    rw [decide_eq_true hfallback] at hadd
    obtain ⟨added, log, hadds, hiff⟩ :=
      addsMode_of_added hadd rfl (List.append_assoc ..) (by simp [changeEvent, fallbackEvent])
    have hmade : ModeAdded modeInfo connType [changed, fellBack] :=
      .inr ⟨not_not.mp hdummy, _, List.mem_cons_of_mem _ List.mem_cons_self, hfallback⟩
    refine ⟨added, log, hadds, ?_⟩
    rw [hiff, and_iff_left (.inl hmade)]
    rfl
  · -- nor was the fallback
    have hadd := addMode_fallback (not_not.mp hres) (not_not.mp hdummy)
    rw [decide_eq_false hfallback] at hadd
    have hadds := addsMode_of_not_added hadd (List.append_assoc ..)
      (by simp [changeEvent, fallbackEvent])
    exact ⟨false, _, hadds, by simp⟩

theorem commitsOnly_setDisplayMode_iff (modeInfo : DisplayModeInfo) (connType : ConnectorType) :
    CommitsOnly (fun log => ModeAdded modeInfo connType log ∧ BecameMaster log)
        (setDisplayMode (some modeInfo) connType) env w ↔
      (env.allocOk (w.time + 1) = true → ModeGuard env (w.time + 2) modeInfo connType) := by
  refine commitsOnly_atomicSetter_iff fun w₁ htime => ?_
  rw [← htime]
  exact addModeAsMaster_iff modeInfo connType

/-! ## §7. The setters. -/

/-- One change, which is committed if it is 0. -/
theorem commitsOnly_setThenCommit (call : MesonSet) (hgood : good [.set call 0]) :
    CommitsOnly good (do
      let ret ← mesonSet call
      if ret ≠ 0 then pure ret else drmModeAtomicCommit) env w := by
  let w₁ : World := w.record (.set call (env.set call w.time))
  have hset : mesonSet call env w = .ok (env.set call w.time, w₁) := rfl
  have hrun := bind_ok (f := fun ret => if ret ≠ 0 then pure ret else drmModeAtomicCommit) hset
  by_cases hres : env.set call w.time = 0
  · have hevents : w₁.events = w.events ++ [.set call 0] := by
      rw [World.record_events, hres]
    rw [if_neg (not_not.mpr hres)] at hrun
    exact (commitsOnly_of_commit hrun hevents (by simp)).mpr hgood
  · rw [if_pos hres] at hrun
    exact commitsOnly_of_noCommit hrun (World.record_events ..) (by simp) hres

theorem commitsOnly_autoModeAndCommit (connType : ConnectorType) :
    CommitsOnly (fun log => ∃ modeInfo, AllAdded [.changeMode modeInfo connType] log)
      (autoModeAndCommit connType) env w := by
  let call : MesonGet (Int × List DisplayModeInfo) := .supportedModesList connType
  have hget : mesonGet call env w = .ok (env.get call w.time, w.tick) := rfl
  refine (commitsOnly_silent_bind hget rfl).mpr ?_
  show CommitsOnly _ (if (env.get call w.time).1 ≠ 0 then _ else _) env w.tick
  split_ifs with hret
  · exact commitsOnly_pure hret
  · refine (commitsOnly_silent_bind (a := env.maxMode) rfl rfl).mpr ?_
    exact commitsOnly_setThenCommit _ ⟨_, .cons ⟨0, rfl, by decide⟩ .nil⟩

theorem commitsOnly_setDisplayAutoMode (connType : ConnectorType) :
    CommitsOnly (fun log => ∃ modeInfo, AllAdded [.changeMode modeInfo connType] log)
      (setDisplayAutoMode connType) env w := by
  obtain ⟨fd, w₁, hopen, hevents, -⟩ := openCard_silent env w
  have halloc : alloc env w₁ = .ok (env.allocOk w₁.time, w₁.tick) := rfl
  have hchange : CommitsOnly (fun log => ∃ modeInfo, AllAdded [.changeMode modeInfo connType] log)
      (autoModeAndCommit connType) env w₁.tick := commitsOnly_autoModeAndCommit connType
  obtain ⟨ret, w₂, log, hrun, -⟩ := id hchange
  unfold setDisplayAutoMode displayMesonSetOpen
  rw [commitsOnly_silent_bind hopen hevents, commitsOnly_silent_bind halloc rfl,
    commitsOnly_close fd ⟨ret, w₂, hrun⟩]
  exact hchange

theorem commitsOnly_setDisplayModeAttr (modeInfo : Option DisplayModeInfo) (colorDepth : Nat)
    (colorSpace : ColorSpace) (connType : ConnectorType) :
    CommitsOnly (AllAdded [.changeMode modeInfo connType, .colorDepth colorDepth connType,
        .colorSpace (.cast colorSpace) connType])
      (setDisplayModeAttr modeInfo colorDepth colorSpace connType) env w := by
  cases modeInfo with
  | none => exact commitsOnly_pure (by decide)
  | some modeInfo =>
      have hsilent : Silent
          (modeAttrSupportedCheck (some modeInfo.name) colorSpace colorDepth connType) env w :=
        silent_modeAttrSupportedCheck ..
      obtain ⟨supported, w₁, hrun, hevents⟩ := hsilent
      refine (commitsOnly_silent_bind hrun hevents).mpr ?_
      cases supported with
      | false => exact commitsOnly_pure (by decide)
      | true => exact commitsOnly_atomicSetter (addsAll_addAll _)

/-- What a setter needs to be all or nothing. -/
def AtomicSetter.Guarded (env : Env) (w : World) : AtomicSetter → Prop
  | .mode (some modeInfo) connType =>
      env.allocOk (w.time + 1) = true → ModeGuard env (w.time + 2) modeInfo connType
  | _ => True

/-- **All or nothing.**  A setter commits only what was asked of it, whatever the
libraries answer, if and only if it is no `setDisplayMode`, or one that has what
it needs. -/
theorem all_or_nothing_iff (env : Env) (w : World) (setter : AtomicSetter) :
    setter.AllOrNothing env w ↔ setter.Guarded env w := by
  cases setter with
  | mode modeInfo connType =>
      cases modeInfo with
      | none => exact iff_of_true (commitsOnly_pure (by decide)) trivial
      | some modeInfo => exact commitsOnly_setDisplayMode_iff modeInfo connType
  | autoMode => exact iff_of_true (commitsOnly_setDisplayAutoMode _) trivial
  | hdrPolicy | aspectRatioValue =>
      exact iff_of_true (commitsOnly_atomicSetterAllocFirst (addsAll_addInTurn _)) trivial
  | modeAttr => exact iff_of_true (commitsOnly_setDisplayModeAttr ..) trivial
  | functionAttribute modeInfo =>
      cases modeInfo with
      | none => exact iff_of_true (commitsOnly_pure (by decide)) trivial
      | some modeInfo => exact iff_of_true (commitsOnly_atomicSetter (addsAll_addInTurn _)) trivial
  | colorSpacedDepth => exact iff_of_true (commitsOnly_atomicSetter (addsAll_addAll _)) trivial
  | _ => exact iff_of_true (commitsOnly_atomicSetter (addsAll_addInTurn _)) trivial

/-- No mode can be added, and the process is the master. -/
def noModeEnv : Env := { Env.allSucceed with set := fun _ _ => -1 }

/-- The process is not the master, and cannot become it. -/
def noMasterEnv : Env := { Env.allSucceed with isMaster := fun _ => 0, setMaster := fun _ => -1 }

/-- `setDisplayMode` commits a request without the mode, and returns 0; and it
commits one after `drmSetMaster` failed. -/
theorem mode_not_requested :
    (match (setDisplayMode (some ⟨1280, 720, 60, false, "720p60hz"⟩) .hdmia) noModeEnv
        ⟨[], 0, [], []⟩ with
      | .ok (ret, w') => ret = 0 ∧ w'.events =
          [.set (.changeMode (some ⟨1280, 720, 60, false, "720p60hz"⟩) .hdmia) (-1),
            .isMaster 1, .commit 0]
      | .error _ => False) ∧
      ¬ (AtomicSetter.mode (some ⟨1280, 720, 60, false, "720p60hz"⟩) .hdmia).AllOrNothing noModeEnv
        ⟨[], 0, [], []⟩ ∧
      ¬ (AtomicSetter.mode (some ⟨1280, 720, 60, false, "720p60hz"⟩) .hdmia).AllOrNothing
        noMasterEnv ⟨[], 0, [], []⟩ := by
  refine ⟨⟨rfl, rfl⟩, fun h => ?_, fun h => ?_⟩
  · have hguard : ¬ SetMasterFails noModeEnv 3 maxRetry ∧ ¬ AlreadyMaster noModeEnv 3 maxRetry :=
      (commitsOnly_setDisplayMode_iff ..).mp h rfl
    exact hguard.2 ⟨0, by decide, by decide, fun j hj => absurd hj (by omega)⟩
  · have hguard : ¬ SetMasterFails noMasterEnv 3 maxRetry :=
      (commitsOnly_setDisplayMode_iff ..).mp h rfl
    exact hguard ⟨0, by decide, by decide, fun j hj => absurd hj (by omega)⟩

end MesonDisplay.Settings
