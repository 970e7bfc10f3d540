/-
  MesonDisplay.Uvm.UvmDev — the library for the UVM device.

  libuvm/UvmDev.cpp and libuvm/Uvm.cpp: each function of the library takes the
  one `UvmDev` object and makes one ioctl on its descriptor.  The object is
  taken under the mutex of the template; the ioctl is made without it.  The
  header of the class is installed too, so a thread may also call the template
  itself.  The driver's answers are given to a step.

  Main results:
    * `one_device` — in every interleaving of calls there is one object at
      most, and every ioctl is made on its descriptor.
-/
import MesonDisplay.Uvm.Singleton

namespace MesonDisplay.Uvm

open MesonDisplay.Runs MesonDisplay.Serial

/-! ## §1. The class. -/

/-- uvm_hook_mod_type. -/
inductive UvmHookModType where
  | VF_SRC_DECODER
  | VF_SRC_VDIN
  | VF_PROCESS_V4LVIDEO
  | VF_PROCESS_DI
  | VF_PROCESS_VIDEOCOMPOSER
  | VF_PROCESS_DECODER
  | PROCESS_NN
  | PROCESS_GRALLOC
  | PROCESS_AIPQ
  | PROCESS_DALTON
  | PROCESS_AIFACE
  | PROCESS_AICOLOR
  | PROCESS_HWC
  | PROCESS_INVALID
  deriving DecidableEq

/-- The number of an enumerator. -/
def UvmHookModType.value (t : UvmHookModType) : Nat := t.ctorIdx

structure UvmFdData where
  fd : Int
  data : Int
  deriving DecidableEq

structure UvmHookData where
  modeType : Nat
  sharedFd : Int
  dataBuf : String
  deriving DecidableEq

/-- The ioctls of the driver with their arguments. -/
inductive Request where
  | UVM_IOC_SET_PID (pid : Int)
  | UVM_IOC_SET_FD (fdData : UvmFdData)
  | UVM_IOC_SET_INFO (hookData : UvmHookData)
  | UVM_IOC_DETACH (hookData : UvmHookData)
  | UVM_IOC_GET_TYPE (fdData : UvmFdData)
  deriving DecidableEq

/-- What an ioctl gives back; `data` is left in `fd_data.data`. -/
structure Reply where
  ret : Int
  data : Int
  deriving DecidableEq

structure UvmDev where
  mDrvFd : Int
  deriving DecidableEq

/-- MESON_ASSERT: `none` is the `abort()`, which a release build leaves out. -/
def mesonAssert (release condition : Bool) : Option Unit :=
  if condition || release then some () else none

/-- The constructor, with what `open` returned. -/
def UvmDev.new (release : Bool) (opened : Int) : Option UvmDev :=
  (mesonAssert release (0 < opened)).map fun _ => { mDrvFd := opened }

/-- An ioctl, and what the method returns then. -/
structure Ioctl where
  fd : Int
  request : Request
  result : Reply → Int

def okOrMinusOne (reply : Reply) : Int := if reply.ret ≠ 0 then -1 else 0

def UvmDev.setPid (dev : UvmDev) (pid : Int) : Ioctl where
  fd := dev.mDrvFd
  request := .UVM_IOC_SET_PID pid
  result := okOrMinusOne

def UvmDev.commitDisplay (dev : UvmDev) (fd commit : Int) : Ioctl where
  fd := dev.mDrvFd
  request := .UVM_IOC_SET_FD { fd := fd, data := commit }
  result := okOrMinusOne

def UvmDev.dettachBuffer (dev : UvmDev) (fd : Int) : Ioctl where
  fd := dev.mDrvFd
  request := .UVM_IOC_DETACH
    { modeType := 1 <<< UvmHookModType.VF_PROCESS_DI.value, sharedFd := fd, dataBuf := "dettach" }
  result := okOrMinusOne

def UvmDev.attachBuffer (dev : UvmDev) (fd : Int) : Ioctl where
  fd := dev.mDrvFd
  request := .UVM_IOC_SET_INFO
    { modeType := UvmHookModType.PROCESS_HWC.value, sharedFd := fd, dataBuf := "detach_flag=1" }
  result := okOrMinusOne

def UvmDev.getVideoType (dev : UvmDev) (fd : Int) : Ioctl where
  fd := dev.mDrvFd
  request := .UVM_IOC_GET_TYPE { fd := fd, data := 0 }
  result reply := if reply.ret ≠ 0 then 0 else reply.data

/-! ## §2. The library. -/

/-- The functions of Uvm.h with their arguments. -/
inductive Call where
  | setPid (pid : Int)
  | commitDisplay (fd commit : Int)
  | attachUvmBuffer (bufferFd : Int)
  | dettachUvmBuffer (bufferFd : Int)
  | getVideoType (bufferFd : Int)
  deriving DecidableEq

/-- What a function does with the object. -/
def Call.method : Call → UvmDev → Ioctl
  | .setPid pid, dev => dev.setPid pid
  | .commitDisplay fd commit, dev => dev.commitDisplay fd commit
  | .attachUvmBuffer bufferFd, dev => dev.attachBuffer bufferFd
  | .dettachUvmBuffer bufferFd, dev => dev.dettachBuffer bufferFd
  | .getVideoType bufferFd, dev => dev.getVideoType bufferFd

/-- Where a thread is in a function of the library: not in one, in
`getInstance`, or behind it with the object. -/
inductive Pc where
  | away
  | gets (call : Call)
  | has (call : Call) (instance_ : Nat)

/-- A function that returned: its ioctl, and what it returned. -/
structure Done (τ : Type) where
  thread : τ
  call : Call
  fd : Int
  request : Request
  reply : Reply
  result : Int

structure Process (τ : Type) where
  singleton : State τ (Statics UvmDev) Op Place Answer
  pc : τ → Pc
  done : List (Done τ)

def Process.start (τ : Type) : Process τ where
  singleton := State.start (Statics.initial UvmDev)
  pc := fun _ => .away
  done := []

inductive Event (τ : Type) where
  | call (t : τ) (call : Call)
  | direct (t : τ) (op : Op)
  | lock (t : τ)
  | run (t : τ) (opened : Int)
  | unlock (t : τ)
  | ioctl (t : τ) (reply : Reply)

variable {τ : Type} [DecidableEq τ]

/-- The template for this class. -/
def uvmSingleton (release : Bool) : Guarded (Statics UvmDev) Op Place Int Answer :=
  singleton (UvmDev.new release)

/-- What a thread in the library does with the answer of the template. -/
def Pc.answered : Pc → Answer → Pc
  | .gets call, .object instance_ => .has call instance_
  | pc, _ => pc

def Process.step (release : Bool) (p : Process τ) : Event τ → Option (Process τ)
  | .call t call =>
      match p.pc t with
      | .away =>
          (Serial.step (uvmSingleton release) p.singleton (.call t .getInstance)).map fun s =>
            { p with singleton := s, pc := Function.update p.pc t (.gets call) }
      | _ => none
  | .direct t op =>
      match p.pc t with
      | .away =>
          (Serial.step (uvmSingleton release) p.singleton (.call t op)).map fun s =>
            { p with singleton := s }
      | _ => none
  | .lock t =>
      (Serial.step (uvmSingleton release) p.singleton (.lock t)).map fun s =>
        { p with singleton := s }
  | .run t opened =>
      (Serial.step (uvmSingleton release) p.singleton (.step t opened)).map fun s =>
        { p with singleton := s }
  | .unlock t =>
      match p.singleton.phase t with
      | .leaving _ answer =>
          (Serial.step (uvmSingleton release) p.singleton (.unlock t)).map fun s =>
            { p with
              singleton := s, pc := Function.update p.pc t ((p.pc t).answered answer) }
      | _ => none
  | .ioctl t reply =>
      match p.pc t with
      | .has call instance_ =>
          -- The object behind the pointer; without one the behaviour is undefined.
          (p.singleton.shared.built[instance_]?).map fun dev =>
            let io := call.method dev
            { p with
              pc := Function.update p.pc t .away
              done := p.done ++
                [{ thread := t, call := call, fd := io.fd, request := io.request,
                   reply := reply, result := io.result reply }] }
      | _ => none

/-! ## §3. One device. -/

/-- The function did what it does with this object. -/
def Done.Of (d : Done τ) (dev : UvmDev) : Prop :=
  d.fd = dev.mDrvFd ∧ d.request = (d.call.method dev).request ∧
    d.result = (d.call.method dev).result d.reply

/-- Nothing happened yet, or all functions work with one object.  Its descriptor
is good in a build with assertions. -/
structure Process.OneDevice (release : Bool) (p : Process τ) : Prop where
  alone : ∀ t u, (p.singleton.phase t).Inside → (p.singleton.phase u).Inside → u = t
  device :
    (p.singleton.shared.built = [] ∧ p.done = [] ∧ (∀ t call i, p.pc t ≠ .has call i) ∧
      ∀ r ∈ p.singleton.returned, Early r) ∨
    ∃ dev before after, p.singleton.shared.built = [dev] ∧
      (release = false → 0 < dev.mDrvFd) ∧ (∀ d ∈ p.done, d.Of dev) ∧
      (∀ t call i, p.pc t = .has call i → i = 0) ∧
      p.singleton.returned = before ++ after ∧ (∀ r ∈ before, Early r) ∧ ∀ r ∈ after, Late r

/-- What every step keeps: a pointer in use was given by the template, and
everything done was done with the object there is. -/
structure Process.Sound (release : Bool) (p : Process τ) : Prop where
  linear : Linear (uvmSingleton release) (Statics.initial UvmDev) p.singleton
  has : ∀ t call i, p.pc t = .has call i → ∃ r ∈ p.singleton.returned, r.2.2 = .object i
  done : ∀ d ∈ p.done, ∃ dev, p.singleton.shared.built = [dev] ∧ d.Of dev

omit [DecidableEq τ] in
/-- The method makes its ioctl on the descriptor of its object. -/
theorem method_fd (call : Call) (dev : UvmDev) : (call.method dev).fd = dev.mDrvFd := by
  cases call <;> rfl

omit [DecidableEq τ] in
theorem new_good {release : Bool} {opened : Int} {dev : UvmDev}
    (h : UvmDev.new release opened = some dev) (hrelease : release = false) :
    0 < dev.mDrvFd := by
  subst hrelease
  obtain ⟨_, hassert, rfl⟩ := Option.map_eq_some_iff.mp h
  by_cases hopened : 0 < opened
  · exact hopened
  · unfold mesonAssert at hassert
    rw [decide_eq_false hopened] at hassert
    exact absurd hassert (by simp)

omit [DecidableEq τ] in
/-- A pointer of the template is the one of the only object. -/
theorem object_zero {r : τ × Op × Answer} {i : Nat} (h : Late r) (hi : r.2.2 = .object i) :
    i = 0 := by
  rcases h with hr | hr
  · rw [hr] at hi
    exact (Answer.object.inj hi).symm
  · rw [hr] at hi
    exact absurd hi (by simp)

variable {release : Bool} {p p' : Process τ}

omit [DecidableEq τ] in
theorem Process.Sound.oneDevice (h : p.Sound release) : p.OneDevice release where
  alone t u ht hu := h.linear.alone ht hu
  device := by
    rcases linear_built h.linear with
      ⟨hnone, hearly⟩ | ⟨opened, dev, before, after, hnew, hbuilt, hsplit, hb, ha⟩
    · refine .inl ⟨hnone, ?_, ?_, hearly⟩
      · refine List.eq_nil_iff_forall_not_mem.mpr fun d hd => ?_
        obtain ⟨dev, hbuilt, -⟩ := h.done d hd
        exact absurd (hnone.symm.trans hbuilt) (by simp)
      · intro t call i hpc
        obtain ⟨r, hr, hi⟩ := h.has t call i hpc
        rw [hearly r hr] at hi
        exact absurd hi (by simp)
    · refine .inr ⟨dev, before, after, hbuilt, new_good hnew, ?_, ?_, hsplit, hb, ha⟩
      · intro d hd
        obtain ⟨dev', hbuilt', hof⟩ := h.done d hd
        obtain ⟨rfl, -⟩ := List.cons.inj (hbuilt.symm.trans hbuilt')
        exact hof
      · intro t call i hpc
        obtain ⟨r, hr, hi⟩ := h.has t call i hpc
        rw [hsplit] at hr
        rcases List.mem_append.mp hr with hr | hr
        · rw [hb r hr] at hi
          exact absurd hi (by simp)
        · exact object_zero (ha r hr) hi

omit [DecidableEq τ] in
theorem start_sound (release : Bool) : (Process.start τ).Sound release where
  linear := start_linear _ _
  has := fun _ _ _ h => absurd h (by simp [Process.start])
  done := fun _ hd => absurd hd List.not_mem_nil

/-- The objects that were built stay. -/
theorem built_prefix {s s' : State τ (Statics UvmDev) Op Place Answer}
    {a : Action τ Op Int} (hstep : Serial.step (uvmSingleton release) s a = some s') :
    s.shared.built <+: s'.shared.built := by
  rcases step_shared hstep with hsame | ⟨opened, place, next, hnext⟩
  · exact hsame ▸ List.prefix_refl _
  · exact step_built hnext

/-- A step of the template. -/
theorem Process.Sound.next (h : p.Sound release)
    {s : State τ (Statics UvmDev) Op Place Answer} {a : Action τ Op Int}
    (hstep : Serial.step (uvmSingleton release) p.singleton a = some s) {pc : τ → Pc}
    (hhas : ∀ t call i, pc t = .has call i → p.pc t = .has call i ∨
      ∃ r ∈ s.returned, r.2.2 = .object i) :
    ({ p with singleton := s, pc := pc } : Process τ).Sound release := by
  have hlinear := step_linear h.linear hstep
  refine ⟨hlinear, ?_, ?_⟩
  · intro t call i hpc
    rcases hhas t call i hpc with hbefore | hnow
    · obtain ⟨r, hr, hi⟩ := h.has t call i hbefore
      exact ⟨r, (step_returned hstep).subset hr, hi⟩
    · exact hnow
  · intro d hd
    obtain ⟨dev, hbuilt, hof⟩ := h.done d hd
    have hprefix := built_prefix hstep
    rw [hbuilt] at hprefix
    rcases linear_built hlinear with ⟨hnone, -⟩ | ⟨_, dev', _, _, -, hbuilt', -⟩
    · rw [hnone] at hprefix
      exact absurd (List.prefix_nil.mp hprefix) (by simp)
    · rw [hbuilt'] at hprefix
      obtain ⟨rfl, -⟩ := List.cons_prefix_cons.mp hprefix
      exact ⟨dev, hbuilt', hof⟩

/-- One step of one thread. -/
theorem step_sound {e : Event τ} (h : p.Sound release) (hstep : p.step release e = some p') :
    p'.Sound release := by
  cases e with
  | call t call =>
      simp only [Process.step] at hstep
      split at hstep
      next =>
          obtain ⟨s, hs, rfl⟩ := Option.map_eq_some_iff.mp hstep
          refine h.next hs ?_
          intro u call' i hu
          by_cases hut : u = t
          · rw [hut, Function.update_self] at hu
            exact absurd hu (by simp)
          · rw [Function.update_of_ne hut] at hu
            exact .inl hu
      next => exact absurd hstep (by simp)
  | direct t op =>
      simp only [Process.step] at hstep
      split at hstep
      next =>
          obtain ⟨s, hs, rfl⟩ := Option.map_eq_some_iff.mp hstep
          exact h.next hs fun _ _ _ hu => .inl hu
      next => exact absurd hstep (by simp)
  | lock t =>
      obtain ⟨s, hs, rfl⟩ := Option.map_eq_some_iff.mp hstep
      exact h.next hs fun _ _ _ hu => .inl hu
  | run t opened =>
      obtain ⟨s, hs, rfl⟩ := Option.map_eq_some_iff.mp hstep
      exact h.next hs fun _ _ _ hu => .inl hu
  | unlock t =>
      simp only [Process.step] at hstep
      split at hstep
      next op answer hphase =>
          obtain ⟨s, hs, rfl⟩ := Option.map_eq_some_iff.mp hstep
          refine h.next hs ?_
          intro u call i hu
          by_cases hut : u = t
          · rw [hut, Function.update_self] at hu
            -- The pointer comes from the answer that is written down now.
            have hmem : (t, op, answer) ∈ s.returned := by
              simp only [Serial.step, hphase] at hs
              obtain rfl := Option.some.inj hs
              exact List.mem_append_right _ List.mem_cons_self
            cases hpc : p.pc t with
            | away =>
                rw [hpc] at hu
                cases answer <;> cases hu
            | has call' j =>
                rw [hut, hpc]
                rw [hpc] at hu
                cases answer <;> exact .inl hu
            | gets call' =>
                rw [hpc] at hu
                cases answer with
                | object j =>
                    obtain ⟨-, rfl⟩ := Pc.has.inj hu
                    exact .inr ⟨_, hmem, rfl⟩
                | present b => cases hu
          · rw [Function.update_of_ne hut] at hu
            exact .inl hu
      next => exact absurd hstep (by simp)
  | ioctl t reply =>
      simp only [Process.step] at hstep
      split at hstep
      next call i hpc =>
          obtain ⟨dev, hdev, rfl⟩ := Option.map_eq_some_iff.mp hstep
          refine ⟨h.linear, ?_, ?_⟩
          · intro u call' j hu
            by_cases hut : u = t
            · rw [hut, show Process.pc _ t = Function.update p.pc t .away t from rfl,
                Function.update_self] at hu
              exact absurd hu (by simp)
            · rw [show Process.pc _ u = Function.update p.pc t .away u from rfl,
                Function.update_of_ne hut] at hu
              exact h.has u call' j hu
          · intro d hd
            rcases List.mem_append.mp hd with hd | hd
            · exact h.done d hd
            · obtain rfl := List.mem_singleton.mp hd
              refine ⟨dev, ?_, method_fd call dev, rfl, rfl⟩
              rcases linear_built h.linear with ⟨hnone, -⟩ | ⟨_, dev', _, _, -, hbuilt, -⟩
              · rw [hnone] at hdev
                exact absurd hdev (by simp)
              · rw [hbuilt] at hdev ⊢
                rw [List.mem_singleton.mp (List.mem_of_getElem? hdev)]
      next => exact absurd hstep (by simp)

/-- **One device.**  In every interleaving of calls of the library and of the
template one object is built at most, also while one thread builds it; every
ioctl is made on its descriptor, and every answer is about it. -/
theorem one_device (release : Bool) (es : List (Event τ)) :
    Throughout (Process.step release) (Process.OneDevice release) (Process.start τ) es :=
  throughout_of_invariant (fun _ h => h.oneDevice) (fun _ _ _ h hstep => step_sound h hstep) es
    (start_sound release)

end MesonDisplay.Uvm
