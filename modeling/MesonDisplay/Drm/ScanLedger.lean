/-
  MesonDisplay.Drm.ScanLedger — the memory of the scans over whole runs.

  `main` of extension/drm/drm_setcrtc.c replaces the resources at every scan and
  gives the last ones back at its end.  A block is named by the number of its
  scan.

  Main results:
    * `scans_released` — in every run each block of each scan that is not live is
      given back once, except those that `free_resources` forgets; no block of
      the live scan is.
-/
import MesonDisplay.Drm.SetCrtcRun

namespace MesonDisplay.Drm

open MesonDisplay.Runs MesonDisplay.Ledger

/-! ## §1. The ledger. -/

/-- The scan had these resources, and they are not live any more. -/
def Closed (scans : List Scan) (resources : Option (Nat × Resources)) (n : Nat)
    (r : Resources) : Prop :=
  (∃ freed, scans[n]? = some (.failed r freed)) ∨
    scans[n]? = some (.returned r) ∧ ∀ r', resources ≠ some (n, r')

/-- The blocks that should be given back by now. -/
def Released (scans : List Scan) (resources : Option (Nat × Resources)) (p : Nat × Block) :
    Prop :=
  ∃ r, Closed scans resources p.1 r ∧ r.Holds p.2 ∧ ¬ r.Forgets p.2

structure Main.Balanced (m : Main) : Prop where
  lists : Lists m.freed (Released m.scans m.resources)
  live : ∀ n r, m.resources = some (n, r) → ∀ b, (n, b) ∉ m.freed
  ends : m.pc = .exited → m.resources = none

/-- What every step keeps. -/
structure Main.Kept (o : Options) (m : Main) : Prop where
  sound : m.Sound o
  lists : Lists m.freed (Released m.scans m.resources)
  ends : m.pc = .exited → m.resources = none

variable {o : Options} {m m' : Main}

theorem Main.Kept.balanced (h : m.Kept o) : m.Balanced := by
  refine ⟨h.lists, ?_, h.ends⟩
  intro n r hres b hb
  obtain ⟨r', hclosed, -⟩ := (h.lists.2 _).mp hb
  obtain ⟨hlast, hn, -⟩ := h.sound.live n r hres
  rcases hclosed with ⟨freed, hfailed⟩ | ⟨-, hno⟩
  · -- The live scan is the last one, and that one was returned.
    have hget : m.scans[n]? = some (.returned r) := by
      rw [List.getLast?_eq_getElem?] at hlast
      rwa [show n = m.scans.length - 1 by omega]
    exact absurd (hget.symm.trans hfailed) (by simp)
  · exact hno r hres

theorem start_kept (o : Options) : (Main.start o).Kept o where
  sound := start_sound o
  lists := lists_nil fun _ ⟨_, hclosed, _⟩ => by
    rcases hclosed with ⟨_, h⟩ | ⟨h, -⟩ <;> cases h
  ends := fun h => absurd h (by simp [Main.start])

/-! ## §2. Release and scan. -/

/-- The release of the live scan. -/
theorem release_lists (hsound : m.Sound o) (h : Lists m.freed (Released m.scans m.resources))
    (hrelease : m.release = .ok m') :
    m'.scans = m.scans ∧ m'.resources = none ∧ Lists m'.freed (Released m.scans none) := by
  unfold Main.release at hrelease
  split at hrelease
  next hres =>
      obtain rfl := Except.ok.inj hrelease
      rw [hres] at h
      exact ⟨rfl, hres, h⟩
  next n r hres =>
      obtain ⟨hlast, hn, hcomplete⟩ := hsound.live n r hres
      have hget : m.scans[n]? = some (.returned r) := by
        rw [List.getLast?_eq_getElem?] at hlast
        rwa [show n = m.scans.length - 1 by omega]
      obtain ⟨freed, hfreed⟩ := hcomplete.freed
      rw [hfreed] at hrelease
      obtain rfl := Except.ok.inj hrelease
      refine ⟨rfl, rfl, ?_⟩
      -- the blocks of this scan join the ledger under its number
      have hblocks := (freeResources_lists hfreed).map (f := Prod.mk n)
        fun _ _ heq => (Prod.mk.inj heq).2
      refine (h.append hblocks ?_).congr ?_
      · rintro p ⟨r', hclosed, -⟩ ⟨b, -, rfl⟩
        rcases hclosed with ⟨_, hfailed⟩ | ⟨-, hno⟩
        · exact absurd (hget.symm.trans hfailed) (by simp)
        · exact hno r hres
      · rintro ⟨k, b⟩
        constructor
        · rintro (⟨r', hclosed, hb⟩ | ⟨b', hb, heq⟩)
          · rcases hclosed with hfailed | ⟨hreturned, -⟩
            · exact ⟨r', .inl hfailed, hb⟩
            · exact ⟨r', .inr ⟨hreturned, fun _ hr => absurd hr (by simp)⟩, hb⟩
          · obtain ⟨rfl, rfl⟩ := Prod.mk.inj heq
            exact ⟨r, .inr ⟨hget, fun _ hr => absurd hr (by simp)⟩, hb⟩
        · rintro ⟨r', hclosed, hb⟩
          rcases hclosed with hfailed | ⟨hreturned, -⟩
          · exact .inl ⟨r', .inl hfailed, hb⟩
          -- a scan that is over is this one, or it was over before
          · by_cases hk : k = n
            · subst hk
              obtain rfl := Scan.returned.inj (Option.some.inj (hreturned.symm.trans hget))
              exact .inr ⟨b, hb, rfl⟩
            · refine .inl ⟨r', .inr ⟨hreturned, ?_⟩, hb⟩
              intro r'' hr
              exact hk (Prod.mk.inj (Option.some.inj (hres.symm.trans hr))).1.symm

/-- The scans with one more. -/
theorem getElem?_concat_iff {α : Type} {xs : List α} {x y : α} {n : Nat} :
    (xs ++ [x])[n]? = some y ↔ xs[n]? = some y ∨ n = xs.length ∧ x = y := by
  by_cases hn : n < xs.length
  · rw [List.getElem?_append_left hn]
    exact ⟨.inl, fun h => h.elim id fun h => absurd h.1 (by omega)⟩
  · have hnone : xs[n]? = none := List.getElem?_eq_none (by omega)
    rw [List.getElem?_append_right (by omega), hnone]
    by_cases heq : n = xs.length
    · simp [heq]
    · have hlen : [x].length ≤ n - xs.length := by rw [List.length_singleton]; omega
      rw [List.getElem?_eq_none hlen]
      simp [heq]

/-- A scan that is live, or had nothing, gives nothing back. -/
theorem released_live {scans : List Scan} {s : Scan} {resources : Option (Nat × Resources)}
    (hs : ∀ r freed, s ≠ .failed r freed)
    (hlive : ∀ r, s = .returned r → ∃ r', resources = some (scans.length, r'))
    (hnumber : ∀ n r, resources = some (n, r) → n = scans.length) (p : Nat × Block) :
    Released scans none p ↔ Released (scans ++ [s]) resources p := by
  refine exists_congr fun r => and_congr_left fun _ => ?_
  constructor
  · rintro (⟨freed, hfailed⟩ | ⟨hreturned, -⟩)
    · exact .inl ⟨freed, getElem?_concat_iff.mpr (.inl hfailed)⟩
    · refine .inr ⟨getElem?_concat_iff.mpr (.inl hreturned), fun r' hr' => ?_⟩
      have hlt := (List.getElem?_eq_some_iff.mp hreturned).1
      have hlast := hnumber _ _ hr'
      omega
  · rintro (⟨freed, hfailed⟩ | ⟨hreturned, hno⟩)
    · rcases getElem?_concat_iff.mp hfailed with hbefore | ⟨-, hlast⟩
      · exact .inl ⟨freed, hbefore⟩
      · exact absurd hlast (hs r freed)
    · rcases getElem?_concat_iff.mp hreturned with hbefore | ⟨hp, hlast⟩
      · exact .inr ⟨hbefore, fun _ hr' => absurd hr' (by simp)⟩
      · obtain ⟨r', hr'⟩ := hlive r hlast
        rw [← hp] at hr'
        exact absurd hr' (hno r')

/-- A scan that failed gave its blocks back itself. -/
theorem released_failed (scans : List Scan) (r : Resources) (freed : List Block)
    (p : Nat × Block) :
    (Released scans none p ∨ ∃ b, (r.Holds b ∧ ¬ r.Forgets b) ∧ Prod.mk scans.length b = p) ↔
      Released (scans ++ [.failed r freed]) none p := by
  obtain ⟨n, b⟩ := p
  constructor
  · rintro (⟨r', ⟨freed', hfailed⟩ | ⟨hreturned, -⟩, hb⟩ | ⟨b', hb, heq⟩)
    · exact ⟨r', .inl ⟨freed', getElem?_concat_iff.mpr (.inl hfailed)⟩, hb⟩
    · exact ⟨r', .inr ⟨getElem?_concat_iff.mpr (.inl hreturned),
        fun _ hr => absurd hr (by simp)⟩, hb⟩
    · obtain ⟨rfl, rfl⟩ := Prod.mk.inj heq
      exact ⟨r, .inl ⟨freed, getElem?_concat_iff.mpr (.inr ⟨rfl, rfl⟩)⟩, hb⟩
  · rintro ⟨r', ⟨freed', hfailed⟩ | ⟨hreturned, -⟩, hb⟩
    · rcases getElem?_concat_iff.mp hfailed with hbefore | ⟨hn, hlast⟩
      · exact .inl ⟨r', .inl ⟨freed', hbefore⟩, hb⟩
      · obtain ⟨rfl, -⟩ := Scan.failed.inj hlast
        exact .inr ⟨b, hb, congrArg (·, b) hn.symm⟩
    · rcases getElem?_concat_iff.mp hreturned with hbefore | ⟨-, hlast⟩
      · exact .inl ⟨r', .inr ⟨hbefore, fun _ hr => absurd hr (by simp)⟩, hb⟩
      · exact absurd hlast (by simp)

/-- What a scan that failed gave back. -/
theorem getResources_failed {card : Card} {r : Resources} {freed : List Block}
    (h : getResources card = .failed r freed) : freeResources r = .ok freed := by
  have herror : ∀ r', scanError r' = .failed r freed → freeResources r = .ok freed := by
    intro r' heq
    unfold scanError at heq
    split at heq
    next => exact absurd heq (by simp)
    next freed' hfreed =>
        obtain ⟨rfl, rfl⟩ := Scan.failed.inj heq
        exact hfreed
  unfold getResources at h
  split at h
  case isFalse => exact absurd h (by simp)
  split at h
  next => exact herror _ h
  split at h
  case isFalse => exact herror _ h
  unfold getObjects at h
  split at h
  next => exact absurd h (by simp)
  next =>
      unfold getAllProperties at h
      split at h
      next =>
          unfold getPlanes at h
          split at h
          next => exact absurd h (by simp)
          split at h
          next => split at h <;> exact absurd h (by simp)
          next => exact herror _ h
      next => exact absurd h (by simp)
  next => exact herror _ h

/-- The choice is no matter of memory. -/
theorem choose_memory {n : Nat} {crtcs : List (Object ModeCrtc)}
    {connectors : List (Object ModeConnector)} (h : m.choose o n crtcs connectors = .ok m') :
    m'.scans = m.scans ∧ m'.resources = m.resources ∧ m'.freed = m.freed ∧
      m'.pc = .condition := by
  obtain ⟨_, -, h⟩ := bind_ok h
  obtain ⟨_, -, h⟩ := bind_ok h
  obtain ⟨_, -, h⟩ := bind_ok h
  obtain rfl := Except.ok.inj h
  exact ⟨rfl, rfl, rfl, rfl⟩

/-- What follows a scan. -/
theorem scanned_lists {card : Card} {scans : List Scan}
    (hscans : m.scans = scans ++ [getResources card]) (hnone : m.resources = none)
    (hlists : Lists m.freed (Released scans none))
    (h : m.scanned o scans.length (getResources card) = .ok m') :
    Lists m'.freed (Released m'.scans m'.resources) ∧ m'.pc ≠ .exited := by
  cases hscan : getResources card with
  | fault =>
      rw [hscan] at h hscans
      obtain rfl := Except.ok.inj h
      show Lists m.freed (Released m.scans m.resources) ∧ _
      rw [hscans, hnone]
      exact ⟨hlists.congr (released_live nofun nofun nofun), nofun⟩
  | nothing =>
      rw [hscan] at h hscans
      obtain rfl := Except.ok.inj h
      show Lists m.freed (Released m.scans m.resources) ∧ _
      rw [hscans, hnone]
      exact ⟨hlists.congr (released_live nofun nofun nofun), nofun⟩
  | failed r freed =>
      -- a scan that fails has freed its own blocks
      have hfreed := freeResources_lists (getResources_failed hscan)
      rw [hscan] at h hscans
      obtain rfl := Except.ok.inj h
      refine ⟨?_, nofun⟩
      show Lists (m.freed ++ freed.map (Prod.mk scans.length)) (Released m.scans m.resources)
      rw [hscans, hnone]
      have hblocks := hfreed.map (f := Prod.mk scans.length) fun _ _ heq => (Prod.mk.inj heq).2
      refine (hlists.append hblocks ?_).congr (released_failed scans r freed)
      rintro p ⟨r', hclosed, -⟩ ⟨b, -, rfl⟩
      rcases hclosed with ⟨_, hget⟩ | ⟨hget, -⟩
      · exact absurd (List.getElem?_eq_some_iff.mp hget).1 (Nat.lt_irrefl _)
      · exact absurd (List.getElem?_eq_some_iff.mp hget).1 (Nat.lt_irrefl _)
  | returned r =>
      rw [hscan] at h hscans
      have hlive : Lists m.freed (Released (scans ++ [.returned r]) (some (scans.length, r))) :=
        hlists.congr (released_live nofun (fun _ _ => ⟨r, rfl⟩)
          fun _ _ heq => (Prod.mk.inj (Option.some.inj heq)).1.symm)
      obtain ⟨objects, -, h⟩ := bind_ok h
      cases objects with
      | none =>
          obtain rfl := Except.ok.inj h
          refine ⟨?_, nofun⟩
          show Lists m.freed (Released m.scans _)
          rw [hscans]
          exact hlive
      | some p =>
          obtain ⟨hs, hr, hf, hpc⟩ := choose_memory h
          rw [hs, hr, hf, hpc]
          refine ⟨?_, nofun⟩
          show Lists m.freed (Released m.scans _)
          rw [hscans]
          exact hlive

/-! ## §3. Runs. -/

/-- The commit is no matter of memory. -/
theorem commit_memory {a : Answers} (h : m.commit o a = .ok m') :
    m'.scans = m.scans ∧ m'.resources = m.resources ∧ m'.freed = m.freed ∧ m'.pc ≠ .exited := by
  obtain ⟨⟨n, r⟩, -, h⟩ := bind_ok h
  obtain ⟨⟨k, mode⟩, -, h⟩ := bind_ok h
  by_cases hkn : k ≠ n
  · simp only [if_pos hkn] at h
    exact absurd h (by simp)
  · simp only [if_neg hkn] at h
    obtain ⟨_, -, h⟩ := bind_ok h
    obtain ⟨_, -, h⟩ := bind_ok h
    obtain ⟨_, -, h⟩ := bind_ok h
    obtain rfl := Except.ok.inj h
    refine ⟨rfl, rfl, rfl, ?_⟩
    show (if a.commit ≠ 0 ∨ o.runAsService = false then Pc.out else .service) ≠ .exited
    split <;> exact nofun

/-- One event. -/
theorem step_kept {e : Event} (h : m.Kept o) (hstep : m.step o e = some m') : m'.Kept o := by
  have hsound' := step_sound h.sound hstep
  cases e with
  | scan card =>
      simp only [Main.step] at hstep
      split at hstep
      next hpc =>
          obtain ⟨m₁, hscan, -⟩ := h.sound.rescan hpc card
          rw [hscan] at hstep
          obtain rfl := Option.some.inj hstep
          -- the scan before is released first, then the new one is recorded
          obtain ⟨m₂, hrelease, hscanned⟩ := bind_ok hscan
          obtain ⟨hscans, hnone, hlists⟩ := release_lists h.sound h.lists hrelease
          rw [← hscans] at hlists
          obtain ⟨hlists', hpc'⟩ := scanned_lists
            (m := { m₂ with scans := m₂.scans ++ [getResources card] }) rfl hnone hlists hscanned
          exact ⟨hsound', hlists', fun hend => absurd hend hpc'⟩
      next => exact absurd hstep (by simp)
  | commit a =>
      simp only [Main.step] at hstep
      split at hstep
      next hpc =>
          obtain rfl := Option.some.inj hstep
          cases hcommit : m.commit o a with
          | error e =>
              rw [hcommit] at hsound'
              exact ⟨hsound', h.lists, fun hend => absurd hend (by simp [Main.orFault])⟩
          | ok m₁ =>
              rw [hcommit] at hsound'
              -- a commit touches no memory of the scans
              obtain ⟨hs, hr, hf, hpc'⟩ := commit_memory hcommit
              refine ⟨hsound', ?_, fun hend => absurd hend hpc'⟩
              show Lists m₁.freed (Released m₁.scans m₁.resources)
              rw [hs, hr, hf]
              exact h.lists
      next => exact absurd hstep (by simp)
  | go =>
      simp only [Main.step, Main.go] at hstep
      split at hstep
      next =>
          obtain rfl := Option.some.inj hstep
          refine ⟨hsound', h.lists, fun hend => ?_⟩
          simp only at hend
          split at hend <;> exact absurd hend (by simp)
      next =>
          obtain rfl := Option.some.inj hstep
          refine ⟨hsound', h.lists, fun hend => ?_⟩
          simp only at hend
          split at hend <;> exact absurd hend (by simp)
      next =>
          obtain rfl := Option.some.inj hstep
          refine ⟨hsound', h.lists, fun hend => ?_⟩
          simp only at hend
          split at hend <;> exact absurd hend (by simp)
      next =>
          cases hrelease : m.release with
          | error e =>
              obtain ⟨_, hok⟩ := h.sound.release
              exact absurd (hrelease.symm.trans hok) (by simp)
          | ok m₁ =>
              rw [hrelease] at hstep
              obtain rfl := Option.some.inj hstep
              obtain ⟨hscans, hnone, hlists⟩ := release_lists h.sound h.lists hrelease
              refine ⟨hsound', ?_, fun _ => hnone⟩
              show Lists m₁.freed (Released m₁.scans m₁.resources)
              rw [hscans, hnone]
              exact hlists
      next => exact absurd hstep (by simp)
  | signal =>
      simp only [Main.step] at hstep
      split at hstep
      next => exact absurd hstep (by simp)
      next hpc =>
          obtain rfl := Option.some.inj hstep
          exact ⟨hsound', h.lists, h.ends⟩

/-- **The memory of the scans.**  In every state of every run each block of each
scan that is not live has been given back once, except those that are forgotten;
nothing else has, so no block of the live scan and none twice. -/
theorem scans_released (o : Options) (es : List Event) :
    Throughout (Main.step o) Main.Balanced (Main.start o) es :=
  throughout_of_invariant (fun _ h => h.balanced) (fun _ _ _ h hstep => step_kept h hstep) es
    (start_kept o)

end MesonDisplay.Drm
