/-
  MesonDisplay.Settings.AutoMode — which mode setDisplayAutoMode chooses.

  The loop keeps the largest area so far, and among modes of that area the
  highest refresh rate.  The second branch does not look at the limit; it is
  reached with an area that is within it, or with the area 0 before any mode was
  chosen.  Behind the loop `modes[miBest]` is used, whether or not the loop chose
  one.

  Main results:
    * `bestLoop_chosen` — the loop finds the first of the best modes.
    * `auto_mode_is_best` — it is passed on.
    * `auto_mode_safe_iff` — there has to be such a mode.
-/
import Mathlib.Data.Prod.Lex
import MesonDisplay.Lib.FirstMax
import MesonDisplay.Settings.AtomicSetters

namespace MesonDisplay.Settings

open MesonDisplay.Ranking

/-! ## §1. The order of the modes. -/

/-- `area` of a mode, as the loop computes it. -/
def DisplayModeInfo.area (mode : DisplayModeInfo) : Int := Helper.toInt32 (mode.w * mode.h)

/-- A larger area is better, and with the same area a higher refresh rate. -/
def DisplayModeInfo.rank (mode : DisplayModeInfo) : Int ×ₗ Nat := toLex (mode.area, mode.vrefresh)

/-- The mode has a positive area within the limit; 0 is no limit. -/
def Allowed (maxArea : Int) (mode : DisplayModeInfo) : Prop :=
  0 < mode.area ∧ (maxArea = 0 ∨ mode.area ≤ maxArea)

instance (maxArea : Int) (mode : DisplayModeInfo) : Decidable (Allowed maxArea mode) :=
  inferInstanceAs (Decidable (_ ∧ _))

theorem rank_lt_iff {mode mode' : DisplayModeInfo} :
    mode.rank < mode'.rank ↔
      mode.area < mode'.area ∨ mode.area = mode'.area ∧ mode.vrefresh < mode'.vrefresh := by
  unfold DisplayModeInfo.rank
  rw [Prod.Lex.toLex_lt_toLex]

theorem rank_le_iff {mode mode' : DisplayModeInfo} :
    mode.rank ≤ mode'.rank ↔
      mode.area < mode'.area ∨ mode.area = mode'.area ∧ mode.vrefresh ≤ mode'.vrefresh := by
  unfold DisplayModeInfo.rank
  rw [Prod.Lex.toLex_le_toLex]

/-! ## §2. The loop. -/

/-- One mode. -/
def bestStep (maxArea : Int) (i : Nat) (best : BestMode) (mode : DisplayModeInfo) : BestMode :=
  if mode.area > best.largestArea ∧ (maxArea = 0 ∨ mode.area ≤ maxArea) then
    ⟨i, mode.area, mode.vrefresh⟩
  else if mode.area = best.largestArea ∧ mode.vrefresh > best.refresh then
    { best with miBest := i, refresh := mode.vrefresh }
  else best

section Loop

variable {maxArea : Int} {seen : List DisplayModeInfo} {best : BestMode} {mode : DisplayModeInfo}

/-- What is known behind the modes that were seen: no mode was allowed, or the
first of the best ones is chosen. -/
def Chosen (maxArea : Int) (seen : List DisplayModeInfo) (best : BestMode) : Prop :=
  (∀ mode ∈ seen, ¬ Allowed maxArea mode) ∧ best.largestArea = 0 ∨
    ∃ k mode, FirstMax DisplayModeInfo.rank (Allowed maxArea) seen k mode ∧
      best = ⟨k, mode.area, mode.vrefresh⟩

/-- Before a mode was allowed. -/
theorem chosen_step_none (hnone : ∀ m ∈ seen, ¬ Allowed maxArea m)
    (hlargest : best.largestArea = 0) :
    Chosen maxArea (seen ++ [mode]) (bestStep maxArea seen.length best mode) := by
  unfold bestStep
  rw [hlargest]
  by_cases hallowed : Allowed maxArea mode
  · rw [if_pos (show mode.area > 0 ∧ _ from hallowed)]
    exact .inr ⟨seen.length, mode, firstMax_concat hnone hallowed, rfl⟩
  · rw [if_neg (show ¬ (mode.area > 0 ∧ _) from hallowed)]
    refine .inl ⟨?_, ?_⟩
    · intro m hm
      rcases List.mem_append.mp hm with hold | hnew
      · exact hnone m hold
      · rw [List.mem_singleton.mp hnew]
        exact hallowed
    · split_ifs
      · exact rfl
      · exact hlargest

/-- Behind a mode that was allowed, both branches are for better modes. -/
theorem chosen_step_some {k : Nat} {found : DisplayModeInfo}
    (hfound : FirstMax DisplayModeInfo.rank (Allowed maxArea) seen k found) :
    Chosen maxArea (seen ++ [mode])
      (bestStep maxArea seen.length ⟨k, found.area, found.vrefresh⟩ mode) := by
  obtain ⟨hpos, hlimit⟩ := hfound.admitted
  unfold bestStep
  dsimp only
  split_ifs with hlarger hequal
  · have hallowed : Allowed maxArea mode := ⟨hpos.trans hlarger.1, hlarger.2⟩
    exact .inr ⟨seen.length, mode, hfound.concat_of_lt hallowed (rank_lt_iff.mpr (.inl hlarger.1)),
      rfl⟩
  · obtain ⟨harea, hrefresh⟩ := hequal
    -- the limit is not looked at, but the area is that of an allowed mode
    have hallowed : Allowed maxArea mode := by
      unfold Allowed
      rw [harea]
      exact ⟨hpos, hlimit⟩
    refine .inr ⟨seen.length, mode, hfound.concat_of_lt hallowed ?_, by rw [harea]⟩
    exact rank_lt_iff.mpr (.inr ⟨harea.symm, hrefresh⟩)
  · refine .inr ⟨k, found, hfound.concat_of_le fun hallowed => rank_le_iff.mpr ?_, rfl⟩
    have hle : mode.area ≤ found.area := by
      by_contra hgt
      exact hlarger ⟨not_le.mp hgt, hallowed.2⟩
    rcases hle.lt_or_eq with hlt | heq
    · exact .inl hlt
    · exact .inr ⟨heq, not_lt.mp fun hgt => hequal ⟨heq, hgt⟩⟩

theorem chosen_step (h : Chosen maxArea seen best) (mode : DisplayModeInfo) :
    Chosen maxArea (seen ++ [mode]) (bestStep maxArea seen.length best mode) := by
  rcases h with ⟨hnone, hlargest⟩ | ⟨k, found, hfound, rfl⟩
  · exact chosen_step_none hnone hlargest
  · exact chosen_step_some hfound

theorem chosen_run (modes : List DisplayModeInfo) (h : Chosen maxArea seen best) :
    Chosen maxArea (seen ++ modes) (bestLoop maxArea seen.length best modes) := by
  induction modes generalizing seen best with
  | nil =>
      rw [List.append_nil]
      exact h
  | cons mode modes ih =>
      have hnext := ih (chosen_step h mode)
      rw [List.append_assoc, List.length_append] at hnext
      exact hnext

end Loop

/-- The state behind the loop. -/
def autoBest (maxArea : Int) (modes : List DisplayModeInfo) : BestMode :=
  bestLoop maxArea 0 ⟨-1, 0, 0⟩ modes

/-- **The loop finds the first of the best modes.** -/
theorem bestLoop_chosen (maxArea : Int) (modes : List DisplayModeInfo) :
    Chosen maxArea modes (autoBest maxArea modes) :=
  have hempty : Chosen maxArea [] ⟨-1, 0, 0⟩ := .inl ⟨fun _ h => absurd h List.not_mem_nil, rfl⟩
  chosen_run modes hempty

theorem autoBest_of_allowed {maxArea : Int} {modes : List DisplayModeInfo}
    (hsome : ∃ mode ∈ modes, Allowed maxArea mode) :
    ∃ k mode, FirstMax DisplayModeInfo.rank (Allowed maxArea) modes k mode ∧
      autoBest maxArea modes = ⟨k, mode.area, mode.vrefresh⟩ := by
  rcases bestLoop_chosen maxArea modes with ⟨hnone, -⟩ | hfound
  · obtain ⟨mode, hmem, hallowed⟩ := hsome
    exact absurd hallowed (hnone mode hmem)
  · exact hfound

/-! ## §3. The call. -/

/-- The answer to the question for the list, which is asked behind `open` and
`drmModeAtomicAlloc`. -/
def modesAnswer (env : Env) (w : World) (connType : ConnectorType) :
    Int × List DisplayModeInfo :=
  env.get (.supportedModesList connType) (w.time + 2)

/-- What is recorded behind the call. -/
def Recorded (env : Env) (w : World) (connType : ConnectorType)
    (P : Int → List DrmEvent → Prop) : Prop :=
  ∃ ret w' log, setDisplayAutoMode connType env w = .ok (ret, w') ∧
    w'.events = w.events ++ log ∧ P ret log

/-- The call passes this mode to `meson_drm_changeMode`, and no other. -/
def ChangesMode (env : Env) (w : World) (connType : ConnectorType)
    (modeInfo : Option DisplayModeInfo) : Prop :=
  Recorded env w connType fun _ log => ∃ result rest,
    log = .set (.changeMode modeInfo connType) result :: rest ∧
      ∀ call result', DrmEvent.set call result' ∉ rest

section Call

variable {env : Env} {w : World} {connType : ConnectorType}

/-- What is done between the request and the end decides what is recorded. -/
theorem recorded_of_autoModeAndCommit {P : Int → List DrmEvent → Prop}
    (hdone : ∀ w₁ : World, w₁.events = w.events → w₁.time = w.time + 2 →
      ∃ ret w₂ log, autoModeAndCommit connType env w₁ = .ok (ret, w₂) ∧
        w₂.events = w.events ++ log ∧ P ret log) : Recorded env w connType P := by
  obtain ⟨fd, w₁, hopen, hevents, htime⟩ := openCard_silent env w
  have halloc : alloc env w₁ = .ok (env.allocOk w₁.time, w₁.tick) := rfl
  obtain ⟨ret, w₂, log, hrun, hlog, hP⟩ := hdone w₁.tick hevents (congrArg (· + 1) htime)
  have hsilent : Silent (mesonCloseDrm fd) env w₂ := silent_close fd
  obtain ⟨u, w₃, hclose, hsame⟩ := hsilent
  refine ⟨ret, w₃, log, ?_, Eq.trans hsame hlog, hP⟩
  unfold setDisplayAutoMode displayMesonSetOpen
  rw [bind_ok hopen, bind_ok halloc, bind_ok hrun, bind_ok hclose]
  rfl

/-- One change, and a commit if it is 0. -/
theorem setThenCommit_records (env : Env) (call : MesonSet) (w : World) :
    ∃ ret w' rest, (do
        let ret ← mesonSet call
        if ret ≠ 0 then pure ret else drmModeAtomicCommit) env w = .ok (ret, w') ∧
      w'.events = w.events ++ .set call (env.set call w.time) :: rest ∧
      ∀ call' result, DrmEvent.set call' result ∉ rest := by
  let w₁ : World := w.record (.set call (env.set call w.time))
  have hset : mesonSet call env w = .ok (env.set call w.time, w₁) := rfl
  rw [bind_ok hset]
  split_ifs
  · exact ⟨_, w₁, [], rfl, rfl, fun _ _ h => absurd h List.not_mem_nil⟩
  · refine ⟨_, _, [.commit (env.commit w₁.time)], rfl, ?_, ?_⟩
    · show w.events ++ [_] ++ [_] = _
      rw [List.append_assoc]
      rfl
    · intro _ _ h
      exact absurd (List.mem_singleton.mp h) (by simp)

/-- What is used as the mode. -/
theorem changesMode_modeAt (hlist : (modesAnswer env w connType).1 = 0) :
    ChangesMode env w connType (modeAt (modesAnswer env w connType).2
      (autoBest (readMaxArea env.maxMode) (modesAnswer env w connType).2).miBest) := by
  refine recorded_of_autoModeAndCommit fun w₁ hevents htime => ?_
  have hget : mesonGet (.supportedModesList connType) env w₁
      = .ok ((0, (modesAnswer env w connType).2), w₁.tick) := by
    show Except.ok (env.get (.supportedModesList connType) w₁.time, w₁.tick) = _
    rw [htime, ← hlist]
    rfl
  obtain ⟨ret, w₂, rest, hrun, hlog, hrest⟩ := setThenCommit_records env
    (.changeMode (modeAt (modesAnswer env w connType).2
      (autoBest (readMaxArea env.maxMode) (modesAnswer env w connType).2).miBest) connType) w₁.tick
  refine ⟨ret, w₂, _, ?_, Eq.trans hlog (congrArg (· ++ _) hevents), _, rest, rfl, hrest⟩
  unfold autoModeAndCommit
  rw [bind_ok hget]
  exact hrun

end Call

/-! ## §4. The best mode. -/

/-- `Allowed`, with the area as a number. -/
def Eligible (maxArea : Int) (mode : DisplayModeInfo) : Prop :=
  0 < mode.w * mode.h ∧ (maxArea = 0 ∨ (mode.w * mode.h : Int) ≤ maxArea)

/-- The rank, with the area as a number. -/
def DisplayModeInfo.size (mode : DisplayModeInfo) : Int ×ₗ Nat :=
  toLex ((mode.w * mode.h : Int), mode.vrefresh)

theorem area_of_lt {mode : DisplayModeInfo} (h : mode.w * mode.h < 2 ^ 31) :
    mode.area = (mode.w * mode.h : Int) := by
  unfold DisplayModeInfo.area Helper.toInt32
  rw [← Int.natCast_mul]
  exact Int.bmod_eq_of_le (by omega) (by omega)

theorem allowed_iff_eligible {maxArea : Int} {mode : DisplayModeInfo}
    (h : mode.w * mode.h < 2 ^ 31) : Allowed maxArea mode ↔ Eligible maxArea mode := by
  unfold Allowed Eligible
  rw [area_of_lt h, ← Int.natCast_mul, Int.natCast_pos]

/-- `modes[k]` is used for an index in the list. -/
theorem modeAt_natCast (modes : List DisplayModeInfo) (k : Nat) :
    modeAt modes k = modes[k]? := by
  unfold modeAt
  rw [if_pos (Int.natCast_nonneg k), Int.toNat_natCast]

/-- **Auto mode picks the best allowed mode**: the first of those with the
largest area, and of them with the highest refresh rate. -/
theorem auto_mode_is_best (env : Env) (w : World) (connType : ConnectorType)
    (hlist : (modesAnswer env w connType).1 = 0)
    (harea : ∀ mode ∈ (modesAnswer env w connType).2, mode.w * mode.h < 2 ^ 31)
    (hsome : ∃ mode ∈ (modesAnswer env w connType).2, Eligible (readMaxArea env.maxMode) mode) :
    ∃ k mode, FirstMax DisplayModeInfo.size (Eligible (readMaxArea env.maxMode))
        (modesAnswer env w connType).2 k mode ∧
      ChangesMode env w connType (some mode) := by
  obtain ⟨m, hm, heligible⟩ := hsome
  obtain ⟨k, mode, hfirst, hbest⟩ :=
    autoBest_of_allowed ⟨m, hm, (allowed_iff_eligible (harea m hm)).mpr heligible⟩
  refine ⟨k, mode, hfirst.congr ?_ ?_, ?_⟩
  · intro mode' hmem
    unfold DisplayModeInfo.size DisplayModeInfo.rank
    rw [area_of_lt (harea mode' hmem)]
  · intro mode' hmem
    exact (allowed_iff_eligible (harea mode' hmem)).symm
  · have hchange := changesMode_modeAt hlist
    rw [hbest] at hchange
    dsimp only at hchange
    rwa [modeAt_natCast, hfirst.item] at hchange

/-- Two modes of the same size, of which one is faster, and one above the
limit. -/
def threeModesEnv : Env :=
  { Env.allSucceed with
    get := fun {α} (call : MesonGet α) n =>
      match call with
      | .supportedModesList _ =>
          (0, [⟨1920, 1080, 50, false, "1080p50hz"⟩, ⟨1920, 1080, 60, false, "1080p60hz"⟩,
            ⟨3840, 2160, 60, false, "2160p60hz"⟩])
      | call => Env.allSucceed.get call n
    maxMode := some "1920x1080" }

theorem auto_mode_is_best_three :
    ∃ k mode, FirstMax DisplayModeInfo.size (Eligible (readMaxArea threeModesEnv.maxMode))
        (modesAnswer threeModesEnv ⟨[], 0, [], []⟩ .hdmia).2 k mode ∧
      ChangesMode threeModesEnv ⟨[], 0, [], []⟩ .hdmia (some mode) := by
  refine auto_mode_is_best threeModesEnv ⟨[], 0, [], []⟩ .hdmia rfl ?_ ?_
  · show ∀ mode ∈ [(⟨1920, 1080, 50, false, "1080p50hz"⟩ : DisplayModeInfo),
      ⟨1920, 1080, 60, false, "1080p60hz"⟩, ⟨3840, 2160, 60, false, "2160p60hz"⟩], _
    decide
  · refine ⟨⟨1920, 1080, 50, false, "1080p50hz"⟩, List.mem_cons_self, by decide, .inr ?_⟩
    decide +kernel

/-! ## §5. The access behind the loop. -/

/-- A list with success: the index that is used is one of the list, and if no
mode is allowed, the call fails without a mode change. -/
def AutoModeSafe (env : Env) (w : World) (connType : ConnectorType) : Prop :=
  (modesAnswer env w connType).1 = 0 →
    (0 ≤ (autoBest (readMaxArea env.maxMode) (modesAnswer env w connType).2).miBest ∧
      (autoBest (readMaxArea env.maxMode) (modesAnswer env w connType).2).miBest
        < (modesAnswer env w connType).2.length) ∧
    ((∀ mode ∈ (modesAnswer env w connType).2, ¬ Allowed (readMaxArea env.maxMode) mode) →
      Recorded env w connType fun ret log =>
        ret ≠ 0 ∧ ∀ modeInfo result, DrmEvent.set (.changeMode modeInfo connType) result ∉ log)

/-- **The access is safe** exactly if the list has an allowed mode. -/
theorem auto_mode_safe_iff (env : Env) (w : World) (connType : ConnectorType) :
    AutoModeSafe env w connType ↔
      ((modesAnswer env w connType).1 = 0 →
        ∃ mode ∈ (modesAnswer env w connType).2, Allowed (readMaxArea env.maxMode) mode) := by
  refine imp_congr_right fun hlist => ?_
  constructor
  · rintro ⟨-, hrefused⟩
    by_contra hnone
    -- the call goes on to change the mode
    obtain ⟨ret, w₁, log, hrun, hlog, -, hno⟩ := hrefused fun mode hmem hallowed =>
      hnone ⟨mode, hmem, hallowed⟩
    obtain ⟨ret', w₂, log', hrun', hlog', result, rest, rfl, -⟩ := changesMode_modeAt hlist
    obtain ⟨rfl, rfl⟩ := Prod.mk.inj (Except.ok.inj (hrun.symm.trans hrun'))
    rw [List.append_cancel_left (hlog.symm.trans hlog')] at hno
    exact hno _ result List.mem_cons_self
  · intro hsome
    obtain ⟨k, mode, hfirst, hbest⟩ := autoBest_of_allowed hsome
    refine ⟨?_, fun hnone => ?_⟩
    · rw [hbest]
      exact ⟨Int.natCast_nonneg k, Int.ofNat_lt.mpr hfirst.lt_length⟩
    · obtain ⟨mode', hmem, hallowed⟩ := hsome
      exact absurd hallowed (hnone mode' hmem)

/-- A limit below the only mode of `Env.allSucceed`. -/
def limitedEnv : Env := { Env.allSucceed with maxMode := some "1280x720" }

/-- The only mode is above the limit, and `modes[-1]` is used. -/
theorem auto_mode_above_limit :
    (modesAnswer limitedEnv ⟨[], 0, [], []⟩ .hdmia).1 = 0 ∧
    (autoBest (readMaxArea limitedEnv.maxMode)
      (modesAnswer limitedEnv ⟨[], 0, [], []⟩ .hdmia).2).miBest = -1 ∧
    ¬ AutoModeSafe limitedEnv ⟨[], 0, [], []⟩ .hdmia := by
  have hlist : (modesAnswer limitedEnv ⟨[], 0, [], []⟩ .hdmia).1 = 0 := rfl
  have hbest : (autoBest (readMaxArea limitedEnv.maxMode)
      (modesAnswer limitedEnv ⟨[], 0, [], []⟩ .hdmia).2).miBest = -1 := by
    decide +kernel
  refine ⟨hlist, hbest, ?_⟩
  intro hsafe
  have hindex := (hsafe hlist).1.1
  rw [hbest] at hindex
  exact absurd hindex (by decide)

end MesonDisplay.Settings
