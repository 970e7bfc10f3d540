/-
  MesonDisplay.Settings.Descriptors — the descriptors behind a call.

  A call that opens a card has to close it on every way to its end, and nothing
  else.  `Closes` follows such a function from the open card to its end, and
  `Restores` says of a whole function that it leaves the descriptors as they
  were.  Three getters return without closing, one stops at a NULL pointer, and
  two setters close the descriptor 0 when there is no memory for the request.

  Main results:
    * `restores_open` — what closes the card it opened restores the descriptors.
    * `keepsFds_open_iff` — what does not close it keeps them only if the card
      could not be opened.
    * `Call.keepsFds_iff` — when a call keeps the descriptors.
    * `descriptors_kept_iff` — the same for every call of a sequence.
-/
import MesonDisplay.Settings.Calls

namespace MesonDisplay.Settings

open MesonDisplay.FdTable MesonDisplay.Runs

variable {α β : Type} {env : Env} {w : World}

/-! ## §1. What is kept. -/

/-- The open descriptors are the same.  Between, every descriptor that was
opened was closed once and not a second time, and no other was closed. -/
structure FdsKept (w w' : World) : Prop where
  same : ∀ fd, fd ∈ w'.fds ↔ fd ∈ w.fds
  closedOnce : ∃ log, w'.fdEvents = w.fdEvents ++ log ∧ held [] log = some [] ∧ ClosedOpen log

/-- The function returns, and keeps the descriptors. -/
def KeepsFds (p : Meson α) (env : Env) (w : World) : Prop := Does FdsKept p env w

/-- The table is the same, and the log between is settled. -/
structure Restored (w w' : World) : Prop where
  fds : w'.fds = w.fds
  log : ∃ log, w'.fdEvents = w.fdEvents ++ log ∧ Settled log

theorem Restored.refl (w : World) : Restored w w :=
  ⟨rfl, [], (List.append_nil _).symm, settled_nil⟩

theorem Restored.trans {w₁ w₂ : World} (h : Restored w w₁) (h' : Restored w₁ w₂) :
    Restored w w₂ := by
  obtain ⟨log, hlog, hset⟩ := h.log
  obtain ⟨log', hlog', hset'⟩ := h'.log
  refine ⟨h'.fds.trans h.fds, log ++ log', ?_, settled_append hset hset'⟩
  rw [hlog', hlog, List.append_assoc]

/-- Nothing is done to descriptors. -/
theorem restored_of_eq {w' : World} (hfds : w'.fds = w.fds) (hlog : w'.fdEvents = w.fdEvents) :
    Restored w w' :=
  ⟨hfds, [], hlog.trans (List.append_nil _).symm, settled_nil⟩

theorem Restored.fdsKept {w' : World} (h : Restored w w') : FdsKept w w' := by
  obtain ⟨log, hlog, hset⟩ := h.log
  refine ⟨fun fd => ?_, log, hlog, hset.held_eq [], hset.closedOpen⟩
  rw [h.fds]

/-! ## §2. Functions that restore the descriptors. -/

/-- The function returns, and restores the descriptors. -/
def Restores (p : Meson α) (env : Env) (w : World) : Prop := Does Restored p env w

theorem Restores.keepsFds {p : Meson α} (h : Restores p env w) : KeepsFds p env w := by
  obtain ⟨a, w', hp, hw⟩ := h
  exact ⟨a, w', hp, hw.fdsKept⟩

theorem restores_pure (a : α) : Restores (pure a : Meson α) env w := does_pure Restored.refl a

theorem restores_bind {p : Meson α} {f : α → Meson β} (hp : Restores p env w)
    (hf : ∀ a w', p env w = .ok (a, w') → Restores (f a) env w') :
    Restores (p >>= f) env w :=
  does_bind (R := Restored) Restored.trans hp hf

theorem restores_get (call : MesonGet α) : Restores (mesonGet call) env w :=
  ⟨_, _, rfl, restored_of_eq rfl rfl⟩

theorem mesonGet_result {call : MesonGet α} {a : α} {w' : World}
    (hget : mesonGet call env w = .ok (a, w')) : env.get call w.time = a :=
  congrArg Prod.fst (Except.ok.inj hget)

theorem restores_set (call : MesonSet) : Restores (mesonSet call) env w :=
  ⟨_, _, rfl, restored_of_eq rfl rfl⟩

theorem restores_alloc : Restores alloc env w := ⟨_, _, rfl, restored_of_eq rfl rfl⟩

theorem restores_commit : Restores drmModeAtomicCommit env w :=
  ⟨_, _, rfl, restored_of_eq rfl rfl⟩

theorem restores_isMaster : Restores drmIsMaster env w := ⟨_, _, rfl, restored_of_eq rfl rfl⟩

theorem restores_setMaster : Restores drmSetMaster env w := ⟨_, _, rfl, restored_of_eq rfl rfl⟩

theorem restores_ite {c : Prop} [Decidable c] {p q : Meson α} (hp : c → Restores p env w)
    (hq : ¬ c → Restores q env w) : Restores (if c then p else q) env w :=
  does_ite hp hq

theorem keepsFds_ignoring {p : Meson α} : KeepsFds (ignoring p) env w ↔ KeepsFds p env w := by
  constructor
  · rintro ⟨u, w', hrun, hkept⟩
    cases hp : p env w with
    | error e =>
        have herror : ignoring p env w = .error e := by
          show Meson.bind p _ env w = _
          unfold Meson.bind
          rw [hp]
        rw [herror] at hrun
        exact absurd hrun (by simp)
    | ok r =>
        obtain ⟨a, w₁⟩ := r
        have hend : ignoring p env w = .ok ((), w₁) := bind_ok hp
        rw [hend] at hrun
        obtain rfl : w₁ = w' := congrArg Prod.snd (Except.ok.inj hrun)
        exact ⟨a, w₁, hp, hkept⟩
  · rintro ⟨a, w', hrun, hkept⟩
    exact ⟨(), w', bind_ok hrun, hkept⟩

/-! ## §3. From the open card to its close. -/

/-- The function restores the descriptors, closes `fd` and returns. -/
def Closes (fd : Int) (p : Meson α) (env : Env) (w : World) : Prop :=
  ∃ w₁ a, Restored w w₁ ∧ p env w = (mesonCloseDrm fd >>= fun _ => pure a) env w₁

theorem closes_now (fd : Int) (a : α) :
    Closes fd (mesonCloseDrm fd >>= fun _ => pure a) env w :=
  ⟨w, a, .refl w, rfl⟩

theorem closes_bind {fd : Int} {p : Meson α} {f : α → Meson β} (hp : Restores p env w)
    (hf : ∀ a w', p env w = .ok (a, w') → Closes fd (f a) env w') :
    Closes fd (p >>= f) env w := by
  obtain ⟨a, w₁, hrun, hw₁⟩ := hp
  obtain ⟨w₂, b, hw₂, hclose⟩ := hf a w₁ hrun
  exact ⟨w₂, b, hw₁.trans hw₂, (bind_ok hrun).trans hclose⟩

theorem openCard_ok (hopen : env.openOk w.time = true) :
    openCard env w = .ok ((lowestFree w.fds : Int), w.opened) := by
  unfold openCard
  rw [if_pos hopen]

theorem openCard_failed (hopen : env.openOk w.time = false) :
    openCard env w = .ok (-1, w.tick) := by
  unfold openCard
  rw [hopen]
  rfl

theorem openCard_returns (env : Env) (w : World) : ∃ fd w', openCard env w = .ok (fd, w') := by
  cases hopen : env.openOk w.time with
  | false => exact ⟨_, _, openCard_failed hopen⟩
  | true => exact ⟨_, _, openCard_ok hopen⟩

theorem restored_tick (w : World) : Restored w w.tick := restored_of_eq rfl rfl

/-- The new descriptor stays open while the others are restored. -/
theorem mem_of_restored_opened {w₁ : World} (h : Restored w.opened w₁) :
    lowestFree w.fds ∈ w₁.fds := by
  rw [h.fds]
  exact List.mem_cons_self

theorem mesonCloseDrm_ok {fd : Nat} (hmem : fd ∈ w.fds) :
    mesonCloseDrm fd env w = .ok ((), w.closed fd) := by
  unfold mesonCloseDrm
  rw [if_pos ⟨Int.natCast_nonneg _, hmem⟩]
  rfl

theorem mesonCloseDrm_of_notMem {fd : Nat} (hmem : fd ∉ w.fds) :
    mesonCloseDrm fd env w = .ok ((), w.refused fd) := by
  unfold mesonCloseDrm
  exact if_neg fun h => hmem h.2

/-- Closing what an open that failed gave. -/
theorem restored_refused (w : World) : Restored w (w.refused (-1)) :=
  ⟨rfl, [.refused (-1)], rfl, settled_refused (by decide)⟩

/-- **What closes the card it opened restores the descriptors.** -/
theorem restores_open {rest : Int → Meson α}
    (hrest : ∀ fd w', w'.time = w.time + 1 → Closes fd (rest fd) env w') :
    Restores (openCard >>= rest) env w := by
  cases hopen : env.openOk w.time with
  | false =>
      obtain ⟨w₁, a, hw₁, hclose⟩ := hrest (-1) w.tick rfl
      refine ⟨a, w₁.refused (-1), ?_, ((restored_tick w).trans hw₁).trans (restored_refused w₁)⟩
      rw [bind_ok (openCard_failed hopen), hclose]
      -- there is no descriptor -1
      rfl
  | true =>
      obtain ⟨w₁, a, hw₁, hclose⟩ := hrest (lowestFree w.fds) w.opened rfl
      obtain ⟨log, hlog, hset⟩ := hw₁.log
      have hend : mesonCloseDrm (lowestFree w.fds) env w₁ = .ok ((), w₁.closed (lowestFree w.fds)) :=
        mesonCloseDrm_ok (mem_of_restored_opened hw₁)
      refine ⟨a, w₁.closed (lowestFree w.fds), ?_, ⟨?_, _, ?_,
        settled_bracket hset (lowestFree w.fds)⟩⟩
      · rw [bind_ok (openCard_ok hopen), hclose]
        exact bind_ok hend
      · show close w₁.fds (lowestFree w.fds) = w.fds
        rw [hw₁.fds]
        exact close_cons_self (lowestFree_notMem w.fds)
      · show w₁.fdEvents ++ [.closed (lowestFree w.fds)] = _
        rw [hlog]
        simp [World.opened]

/-- **What does not close the card it opened** keeps the descriptors only if
the card could not be opened. -/
theorem keepsFds_open_iff {rest : Int → Meson α}
    (hrest : ∀ fd w', w'.time = w.time + 1 → Restores (rest fd) env w') :
    KeepsFds (openCard >>= rest) env w ↔ env.openOk w.time = false := by
  cases hopen : env.openOk w.time with
  | false =>
      refine iff_of_true ?_ rfl
      obtain ⟨a, w₁, hrun, hw₁⟩ := hrest (-1) w.tick rfl
      refine ⟨a, w₁, (bind_ok (openCard_failed hopen)).trans hrun, ?_⟩
      exact ((restored_tick w).trans hw₁).fdsKept
  | true =>
      refine iff_of_false ?_ (by simp)
      rintro ⟨b, w', hrun', hkept⟩
      obtain ⟨a, w₁, hrun, hw₁⟩ := hrest (lowestFree w.fds) w.opened rfl
      rw [bind_ok (openCard_ok hopen), hrun] at hrun'
      obtain rfl : w₁ = w' := congrArg Prod.snd (Except.ok.inj hrun')
      exact lowestFree_notMem w.fds ((hkept.same _).mp (mem_of_restored_opened hw₁))

/-! ## §4. The getters. -/

theorem restores_getter (call : MesonGet α) (result : α → β) :
    Restores (getter call result) env w := by
  refine restores_open fun fd w' _ => ?_
  exact closes_bind (restores_get call) fun value _ _ => closes_now fd (result value)

theorem restores_getterInto (pointers : List Pointer) (call : MesonGet (Int × α)) :
    Restores (getterInto pointers call) env w :=
  restores_ite (fun _ => restores_pure _) fun _ => restores_getter _ _

theorem restores_getDisplayPreferMode (modeInfo : Pointer) (connType : ConnectorType) :
    Restores (getDisplayPreferMode modeInfo connType) env w := by
  refine restores_ite (fun _ => restores_pure _) fun _ => ?_
  exact restores_bind (restores_get _) fun _ _ _ => restores_pure _

theorem restores_getDisplayHDRSupportList (connType : ConnectorType) :
    Restores (getDisplayHDRSupportList connType) env w := by
  refine restores_open fun fd w' _ => ?_
  refine closes_bind (restores_get _) fun hdrcap _ _ => ?_
  exact closes_bind (restores_get _) fun dvcap _ _ => closes_now fd _

theorem restores_modeAttrSupportedCheck (modeName : Option String) (colorSpace : ColorSpace)
    (colorDepth : Nat) (connType : ConnectorType) :
    Restores (modeAttrSupportedCheck modeName colorSpace colorDepth connType) env w := by
  rcases modeAttrSupportedCheck_eq modeName colorSpace colorDepth connType with h | ⟨_, _, h⟩
  · rw [h]
    exact restores_pure _
  · rw [h]
    exact restores_getter _ _

theorem restores_supportAttrLoop (modeName : String) (connType : ConnectorType)
    (attrs : List (ColorSpace × Nat)) :
    ∀ (ret : Int) (w : World), Restores (supportAttrLoop modeName connType attrs ret) env w := by
  induction attrs with
  | nil => exact fun _ _ => restores_pure _
  | cons attr attrs ih =>
      intro ret w
      unfold supportAttrLoop
      exact restores_bind (restores_modeAttrSupportedCheck ..) fun _ w' _ => ih _ w'

theorem keepsFds_getDisplayEDIDData (connType : ConnectorType) (dataLen data : Pointer) :
    KeepsFds (getDisplayEDIDData connType dataLen data) env w ↔
      env.openOk w.time = false ∨ dataLen ≠ .null ∧ data ≠ .null := by
  by_cases hnull : dataLen = .null ∨ data = .null
  · -- the pointers are checked with the card open
    have hiff : KeepsFds (getDisplayEDIDData connType dataLen data) env w ↔
        env.openOk w.time = false := by
      refine keepsFds_open_iff fun fd w' _ => ?_
      rw [if_pos hnull]
      exact restores_pure _
    rw [hiff, ← not_or]
    simp [hnull]
  · have hkeeps : Restores (getDisplayEDIDData connType dataLen data) env w := by
      refine restores_open fun fd w' _ => ?_
      rw [if_neg hnull]
      exact closes_bind (restores_get _) fun edid _ _ => closes_now fd _
    exact iff_of_true hkeeps.keepsFds (.inr (not_or.mp hnull))

theorem keepsFds_getDisplayAspectRatioValue (connType : ConnectorType) :
    KeepsFds (getDisplayAspectRatioValue connType) env w ↔ env.openOk w.time = false := by
  refine keepsFds_open_iff fun fd w' _ => ?_
  exact restores_bind (restores_get _) fun _ _ _ => restores_pure _

theorem keepsFds_getDisplaySupportAttrList (modeInfo : Pointer) (connType : ConnectorType) :
    KeepsFds (getDisplaySupportAttrList modeInfo connType) env w ↔
      env.openOk w.time = false ∨ modeInfo = .null ∨
        (env.get (.modeInfo connType) (w.time + 1)).1 ≠ -1 := by
  unfold getDisplaySupportAttrList
  cases modeInfo with
  | null => exact iff_of_true (restores_pure _).keepsFds (by simp)
  | valid =>
      rw [if_neg (by simp)]
      by_cases hret : (env.get (.modeInfo connType) (w.time + 1)).1 = -1
      · refine (keepsFds_open_iff fun fd w' htime => ?_).trans (by simp [hret])
        refine restores_bind (restores_get _) fun r w₁ hget => ?_
        rw [← htime, mesonGet_result hget] at hret
        exact restores_ite (fun _ => restores_pure _) fun hne => absurd hret hne
      · refine iff_of_true (Restores.keepsFds ?_) (.inr (.inr hret))
        refine restores_open fun fd w' htime => ?_
        refine closes_bind (restores_get _) fun r w₁ hget => ?_
        rw [← htime, mesonGet_result hget] at hret
        show Closes fd (if r.1 = -1 then _ else _) env w₁
        rw [if_neg hret]
        exact closes_bind (restores_supportAttrLoop ..) fun ret _ _ => closes_now fd ret

theorem keepsFds_getDisplayFrameRate (connType : ConnectorType) :
    KeepsFds (getDisplayFrameRate connType) env w ↔ env.allocOk w.time = true := by
  cases halloc : env.allocOk w.time with
  | false =>
      refine iff_of_false ?_ (by simp)
      rintro ⟨rate, w', hrun, -⟩
      obtain ⟨fd, w₁, hopen⟩ := openCard_returns env w.tick
      have hfault : getDisplayFrameRate connType env w = .error .nullPointer := by
        unfold getDisplayFrameRate
        rw [bind_ok (a := env.allocOk w.time) rfl, halloc]
        exact bind_ok hopen
      rw [hfault] at hrun
      exact absurd hrun (by simp)
  | true =>
      refine iff_of_true (Restores.keepsFds ?_) rfl
      refine restores_bind restores_alloc fun modeInfo w₁ hrun => ?_
      obtain rfl : env.allocOk w.time = modeInfo := congrArg Prod.fst (Except.ok.inj hrun)
      refine restores_open fun fd w₂ _ => ?_
      refine closes_bind (restores_get _) fun r w₃ _ => ?_
      rw [halloc]
      show Closes fd (if r.2.vrefresh ∈ [60, 30, 24, 120, 240] then _ else _) env w₃
      split_ifs
      · exact closes_bind (restores_get _) fun policy _ _ => closes_now fd _
      · exact closes_now fd _

/-! ## §5. The setters. -/

theorem restores_addInTurn (calls : List MesonSet) :
    ∀ w : World, Restores (addInTurn calls) env w := by
  induction calls with
  | nil => exact fun _ => restores_pure _
  | cons call calls ih =>
      intro w
      refine restores_bind (restores_set call) fun res w' _ => ?_
      exact restores_ite (fun _ => restores_pure _) fun _ => ih w'

theorem restores_addAll (calls : List MesonSet) :
    ∀ w : World, Restores (addAll calls) env w := by
  induction calls with
  | nil => exact fun _ => restores_pure _
  | cons call calls ih =>
      intro w
      refine restores_bind (restores_set call) fun res w' _ => ?_
      exact restores_bind (ih w') fun _ _ _ => restores_pure _

theorem restores_masterLoop (attempts : Nat) :
    ∀ w : World, Restores (masterLoop attempts) env w := by
  induction attempts with
  | zero => exact fun _ => restores_pure _
  | succ attempts ih =>
      intro w
      refine restores_bind restores_isMaster fun isMaster w₁ _ => ?_
      refine restores_ite (fun _ => restores_pure _) fun _ => ?_
      refine restores_bind restores_setMaster fun res w₂ _ => ?_
      exact restores_ite (fun _ => restores_pure _) fun _ => ih w₂

theorem restores_addModeAsMaster (modeInfo : DisplayModeInfo) (connType : ConnectorType) :
    Restores (addModeAsMaster modeInfo connType) env w := by
  refine restores_bind ?_ fun added w₁ _ => ?_
  · refine restores_bind (restores_set _) fun res w₁ _ => ?_
    refine restores_ite (fun _ => ?_) fun _ => restores_pure _
    exact restores_bind (restores_set _) fun _ _ _ => restores_pure _
  · exact restores_ite (fun _ => restores_masterLoop _ w₁) fun _ => restores_pure _

theorem restores_addAndCommit {add : Meson Bool} (hadd : ∀ w, Restores add env w) (req : Bool) :
    Restores (addAndCommit req add) env w := by
  refine restores_ite (fun _ => ?_) fun _ => restores_pure _
  refine restores_bind (hadd w) fun added w₁ _ => ?_
  exact restores_ite (fun _ => restores_commit) fun _ => restores_pure _

theorem restores_atomicSetter {add : Meson Bool} (hadd : ∀ w, Restores add env w) :
    Restores (atomicSetter add) env w := by
  refine restores_open fun fd w₁ _ => ?_
  refine closes_bind restores_alloc fun req w₂ _ => ?_
  exact closes_bind (restores_addAndCommit hadd req) fun ret _ _ => closes_now fd ret

/-- Without a request the descriptor 0 is closed, whoever opened it. -/
theorem keepsFds_atomicSetterAllocFirst {add : Meson Bool} (hadd : ∀ w, Restores add env w) :
    KeepsFds (atomicSetterAllocFirst add) env w ↔ env.allocOk w.time = true ∨ 0 ∉ w.fds := by
  cases halloc : env.allocOk w.time with
  | true =>
      refine iff_of_true (Restores.keepsFds ?_) (.inl rfl)
      refine restores_bind restores_alloc fun req w₁ hrun => ?_
      obtain rfl : env.allocOk w.time = req := congrArg Prod.fst (Except.ok.inj hrun)
      rw [if_pos halloc]
      refine restores_open fun fd w₂ _ => ?_
      exact closes_bind (restores_addAndCommit hadd true) fun ret _ _ => closes_now fd ret
  | false =>
      have hrun : atomicSetterAllocFirst add env w =
          (mesonCloseDrm (0 : Nat) >>= fun _ => pure (-1)) env w.tick := by
        unfold atomicSetterAllocFirst
        rw [bind_ok (a := env.allocOk w.time) rfl, halloc]
        rfl
      by_cases hmem : 0 ∈ w.fds
      · refine iff_of_false ?_ (by simp [hmem])
        rintro ⟨ret, w', hrun', hkept⟩
        have hclose : mesonCloseDrm (0 : Nat) env w.tick = .ok ((), w.tick.closed 0) :=
          mesonCloseDrm_ok hmem
        rw [hrun, bind_ok hclose] at hrun'
        obtain rfl : w.tick.closed 0 = w' := congrArg Prod.snd (Except.ok.inj hrun')
        exact notMem_close w.fds 0 ((hkept.same 0).mpr hmem)
      · have hclose : mesonCloseDrm (0 : Nat) env w.tick = .ok ((), w.tick.refused 0) :=
          mesonCloseDrm_of_notMem hmem
        refine iff_of_true ⟨-1, w.tick.refused 0, hrun.trans (bind_ok hclose), ?_⟩ (.inr hmem)
        -- a number that is not open is closed, and the call opened none
        exact ⟨fun _ => Iff.rfl, [.refused 0], rfl, rfl, by simp [ClosedOpen]⟩

theorem restores_setDisplayAutoMode (connType : ConnectorType) :
    Restores (setDisplayAutoMode connType) env w := by
  refine restores_open fun fd w₁ _ => ?_
  refine closes_bind restores_alloc fun req w₂ _ => ?_
  refine closes_bind ?_ fun ret _ _ => closes_now fd ret
  refine restores_bind (restores_get _) fun r w₃ _ => ?_
  refine restores_ite (fun _ => restores_pure _) fun _ => ?_
  refine restores_bind ⟨_, _, rfl, .refl w₃⟩ fun limit w₄ _ => ?_
  refine restores_bind (restores_set _) fun res w₅ _ => ?_
  exact restores_ite (fun _ => restores_pure _) fun _ => restores_commit

theorem restores_setDisplayModeAttr (modeInfo : Option DisplayModeInfo) (colorDepth : Nat)
    (colorSpace : ColorSpace) (connType : ConnectorType) :
    Restores (setDisplayModeAttr modeInfo colorDepth colorSpace connType) env w := by
  cases modeInfo with
  | none => exact restores_pure _
  | some modeInfo =>
      refine restores_bind (restores_modeAttrSupportedCheck ..) fun supported w₁ _ => ?_
      refine restores_ite (fun _ => ?_) fun _ => restores_pure _
      exact restores_atomicSetter (restores_addAll _)

/-! ## §6. Calls. -/

/-- What a getter needs to keep the descriptors. -/
def Getter.FdSafe (env : Env) (w : World) : Getter → Prop
  | .edidData _ dataLen data => env.openOk w.time = false ∨ dataLen ≠ .null ∧ data ≠ .null
  | .aspectRatioValue _ => env.openOk w.time = false
  | .supportAttrList modeInfo connType =>
      env.openOk w.time = false ∨ modeInfo = .null ∨
        (env.get (.modeInfo connType) (w.time + 1)).1 ≠ -1
  | .frameRate _ => env.allocOk w.time = true
  | _ => True

/-- What a call needs to keep the descriptors. -/
def Call.FdSafe (env : Env) (w : World) : Call → Prop
  | .get getter => getter.FdSafe env w
  | .set (.hdrPolicy ..) => env.allocOk w.time = true ∨ 0 ∉ w.fds
  | .set (.aspectRatioValue ..) => env.allocOk w.time = true ∨ 0 ∉ w.fds
  | _ => True

/-- The call returns.  The open descriptors are the same behind it, every
descriptor it opened was closed once, and no other was closed. -/
def Call.KeepsDescriptors (env : Env) (w : World) (call : Call) : Prop :=
  ∃ w', call.step env w = some w' ∧ FdsKept w w'

theorem Getter.keepsFds_iff (getter : Getter) :
    KeepsFds getter.run env w ↔ getter.FdSafe env w := by
  cases getter with
  | edidData => exact keepsFds_ignoring.trans (keepsFds_getDisplayEDIDData ..)
  | aspectRatioValue => exact keepsFds_ignoring.trans (keepsFds_getDisplayAspectRatioValue _)
  | supportAttrList => exact keepsFds_ignoring.trans (keepsFds_getDisplaySupportAttrList ..)
  | frameRate => exact keepsFds_ignoring.trans (keepsFds_getDisplayFrameRate _)
  | mode | modesList | planeSize | physicalSize | signalTimingInfo =>
      exact iff_of_true (keepsFds_ignoring.mpr (restores_getterInto ..).keepsFds) trivial
  | preferMode =>
      exact iff_of_true (keepsFds_ignoring.mpr (restores_getDisplayPreferMode ..).keepsFds) trivial
  | hdrSupportList =>
      exact iff_of_true (keepsFds_ignoring.mpr (restores_getDisplayHDRSupportList _).keepsFds)
        trivial
  | modeAttrSupported =>
      exact iff_of_true (keepsFds_ignoring.mpr (restores_modeAttrSupportedCheck ..).keepsFds)
        trivial
  | _ => exact iff_of_true (keepsFds_ignoring.mpr (restores_getter ..).keepsFds) trivial

theorem AtomicSetter.keepsFds_iff (setter : AtomicSetter) :
    KeepsFds (ignoring setter.run) env w ↔ (Call.set setter).FdSafe env w := by
  cases setter with
  | hdrPolicy | aspectRatioValue =>
      exact keepsFds_ignoring.trans (keepsFds_atomicSetterAllocFirst (restores_addInTurn _))
  | colorSpacedDepth =>
      refine iff_of_true (keepsFds_ignoring.mpr (Restores.keepsFds ?_)) trivial
      exact restores_atomicSetter (restores_addAll _)
  | mode modeInfo connType =>
      refine iff_of_true (keepsFds_ignoring.mpr (Restores.keepsFds ?_)) trivial
      cases modeInfo with
      | none => exact restores_pure _
      | some modeInfo => exact restores_atomicSetter fun _ => restores_addModeAsMaster ..
  | autoMode =>
      exact iff_of_true (keepsFds_ignoring.mpr (restores_setDisplayAutoMode _).keepsFds) trivial
  | modeAttr =>
      exact iff_of_true (keepsFds_ignoring.mpr (restores_setDisplayModeAttr ..).keepsFds) trivial
  | functionAttribute modeInfo =>
      refine iff_of_true (keepsFds_ignoring.mpr (Restores.keepsFds ?_)) trivial
      cases modeInfo with
      | none => exact restores_pure _
      | some modeInfo => exact restores_atomicSetter (restores_addInTurn _)
  | _ =>
      refine iff_of_true (keepsFds_ignoring.mpr (Restores.keepsFds ?_)) trivial
      exact restores_atomicSetter (restores_addInTurn _)

theorem restores_setAndClose (call : MesonSet) :
    Restores (do
      let fd ← openCard
      let ret ← mesonSet call
      mesonCloseDrm fd
      pure ret) env w := by
  refine restores_open fun fd w₁ _ => ?_
  exact closes_bind (restores_set call) fun ret _ _ => closes_now fd ret

theorem Call.keepsFds_iff (call : Call) : KeepsFds call.run env w ↔ call.FdSafe env w := by
  cases call with
  | get getter => exact getter.keepsFds_iff
  | set setter => exact setter.keepsFds_iff
  | videoZorder | planeMute =>
      exact iff_of_true (keepsFds_ignoring.mpr (restores_setAndClose _).keepsFds) trivial

theorem Call.keepsDescriptors_iff (call : Call) :
    call.KeepsDescriptors env w ↔ call.FdSafe env w := by
  rw [← call.keepsFds_iff]
  unfold Call.KeepsDescriptors Call.step KeepsFds Does
  cases hrun : call.run env w with
  | error e => simp
  | ok r =>
      obtain ⟨u, w₁⟩ := r
      simp

/-! ## §7. Sequences of calls. -/

/-- What the calls of a sequence opened is closed behind each of them, if and
only if each of them has what it needs. -/
theorem descriptors_kept_iff (env : Env) (w : World) (calls : List Call) :
    Meets (Call.step env) (Call.KeepsDescriptors env) w calls ↔
      Meets (Call.step env) (Call.FdSafe env) w calls :=
  meets_congr (I := fun _ => True) (fun _ _ _ _ _ => trivial) calls
    (fun _ call _ _ => call.keepsDescriptors_iff) trivial

/-- A process with the standard descriptors asks for the aspect ratio, and has
one descriptor more. -/
theorem card_left_open :
    (Call.step .allSucceed ⟨[0, 1, 2], 0, [], []⟩ (.get (.aspectRatioValue .hdmia))).map World.fds =
        some [3, 0, 1, 2] ∧
      ¬ Meets (Call.step .allSucceed) (Call.KeepsDescriptors .allSucceed) ⟨[0, 1, 2], 0, [], []⟩
        [.get (.aspectRatioValue .hdmia)] := by
  refine ⟨rfl, fun h => ?_⟩
  have hsafe : Env.allSucceed.openOk 0 = false := (Call.keepsDescriptors_iff _).mp h.1
  exact absurd hsafe (by decide)

/-- **Calls that have what they need** return one after the other, and leave the
descriptors of the process as they were before the first. -/
theorem run_keeps_descriptors {t : World} {calls : List Call}
    (hsafe : Meets (Call.step env) (Call.FdSafe env) w calls)
    (hrun : run (Call.step env) w calls = some t) (fd : Nat) : fd ∈ t.fds ↔ fd ∈ w.fds := by
  refine run_invariant (I := fun s => ∀ fd, fd ∈ s.fds ↔ fd ∈ w.fds) ?_ calls
    (fun _ => Iff.rfl) hsafe hrun fd
  intro s call s' hs hcall hstep other
  obtain ⟨s₁, hs₁, hkept⟩ := call.keepsDescriptors_iff.mpr hcall
  obtain rfl : s₁ = s' := Option.some.inj (hs₁.symm.trans hstep)
  exact (hkept.same other).trans (hs other)

end MesonDisplay.Settings
