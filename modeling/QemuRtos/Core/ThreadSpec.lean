import QemuRtos.Core.TrapSpec
import QemuRtos.Lib.BitMask

/-!
# Creation, start and wake calls

What the calls of `thread.c` that are not traps do to the scheduler: `Installed` is the effect of
creating a thread in a free table entry, `WokenSeq` that of the wake calls. `thread_init` establishes
`SchedInv` and the others keep it.
-/

namespace QemuRtos

open Lib

variable {Q : Set U64} {s s' : Sched} {c tid : Nat} {frame queue : U64} {k k' : Kernel}

/-! ### The initial frame -/

theorem alignDown_toNat (x : U64) : (alignDown x 16).toNat = x.toNat / 16 * 16 :=
  toNat_and_not_mask x (k := 4) (by decide)

theorem threadStackTop_toNat (image : Image) (htid : tid < threadMax) :
    (threadStackTop tid image).toNat = image.threadStacks.toNat + (tid + 1) * threadStackSize := by
  have hal := image.stacks_align
  have hle := image.stacks_le_end
  have hlt := image.kernelEnd.isLt
  have htop : (BitVec.ofNat 64 ((tid + 1) * threadStackSize)).toNat = (tid + 1) * threadStackSize := by
    rw [BitVec.toNat_ofNat, Nat.mod_eq_of_lt]
    simp only [threadStackSize, threadMax] at *
    omega
  rw [threadStackTop, alignDown_toNat, BitVec.toNat_add, htop, Nat.mod_eq_of_lt]
  all_goals
    simp only [threadStackSize, threadMax] at *
    omega

theorem threadStackTop_ne_zero (image : Image) (htid : tid < threadMax) : threadStackTop tid image ≠ 0 := by
  intro he
  have htop := threadStackTop_toNat image htid
  have hbase := image.base_le_stacks
  rw [he] at htop
  simp only [BitVec.ofNat_eq_ofNat, BitVec.toNat_ofNat, Nat.zero_mod] at htop
  omega

theorem trapFrameStackSize_toNat : trapFrameStackSize.toNat = 288 := rfl

def initialFrame (tid : Nat) (image : Image) : U64 :=
  alignDown (threadStackTop tid image - trapFrameStackSize) 16

theorem initialFrame_onStack (image : Image) (htid : tid < threadMax) : OnStack image tid (initialFrame tid image) := by
  have hal := image.stacks_align
  have hbase := image.base_le_stacks
  have htop := threadStackTop_toNat image htid
  have hsub : (threadStackTop tid image - trapFrameStackSize).toNat =
      image.threadStacks.toNat + (tid + 1) * threadStackSize - 288 := by
    rw [BitVec.toNat_sub_of_le, htop]
    · rfl
    · rw [BitVec.le_def, htop, trapFrameStackSize_toNat]
      omega
  rw [OnStack, initialFrame, alignDown_toNat, hsub, trapFrameStackSize_toNat]
  simp only [threadStackSize]
  omega

theorem OnStack.ne_zero {image : Image} (h : OnStack image tid frame) : frame ≠ 0 := by
  rintro rfl
  have := image.base_le_stacks
  have := h.1
  simp only [BitVec.ofNat_eq_ofNat, BitVec.toNat_ofNat, Nat.zero_mod] at this
  omega

theorem OnStack.unique {image : Image} {t : Nat} (h : OnStack image tid frame) (h' : OnStack image t frame) :
    tid = t := by
  simp only [OnStack, trapFrameStackSize_toNat, threadStackSize] at h h'
  omega

theorem InPages.not_onStack {image : Image} (h : InPages image frame) (htid : tid < threadMax) :
    ¬OnStack image tid frame := by
  have hle := image.stacks_le_end
  simp only [InPages, OnStack, trapFrameStackSize_toNat, threadStackSize, threadMax] at h htid ⊢
  omega

/-! ### Creation -/

/-- The record that `install_thread` and `install_user_thread` write, once the thread is queued. -/
def newThread (tid : Nat) (name : Option String) (entry arg kernelSp frame addressSpace task : U64) : Thread :=
  { tid := tid
    state := .ready
    waitReason := .none
    waitQueue := 0
    kernelSp := kernelSp
    trapFrame := frame
    addressSpace := addressSpace
    userTask := task
    quantumTicks := 0
    inReadyQueue := true
    inSleepQueue := false
    inWaitQueue := false
    wakeTick := 0
    waitResult := waitOk
    entry := entry
    arg := arg
    name := name }

/-- `th` is created in the free entry `tid` and queued as the last ready thread; only the frames at
the addresses in `own` change. -/
structure Installed (Q : Set U64) (tid : Nat) (th : Thread) (own : Set U64) (s s' : Sched) : Prop where
  real : tidIsReal tid
  free : (s.threads tid).state = .unused ∨ (s.threads tid).state = .exited
  threads : s'.threads = Function.update s.threads tid th
  frames : ∀ a ∉ own, s'.frames a = s.frames a
  ready : s'.ready = s.ready ++ [tid]
  sleep : s'.sleepQueue = s.sleepQueue
  waits : s'.waitQueues = s.waitQueues
  statics : s'.statics.2 = s.statics.2

theorem Thread.Coherent.free_flags {th : Thread} (h : th.Coherent)
    (hst : th.state = .unused ∨ th.state = .exited) :
    th.inReadyQueue = false ∧ th.inSleepQueue = false ∧ th.inWaitQueue = false ∧ th.waitQueue = 0 := by
  have hw : th.inWaitQueue = false := by
    rw [← Bool.not_eq_true, h.in_wait]; rcases hst with he | he <;> simp [he]
  refine ⟨?_, ?_, hw, h.no_queue hw⟩
  · rw [← Bool.not_eq_true, h.in_ready]; rcases hst with he | he <;> simp [he]
  · rw [← Bool.not_eq_true, h.in_sleep]; rcases hst with he | he <;> simp [he]

theorem freeTid_spec (h : s.freeTid = some tid) :
    tidIsReal tid ∧ ((s.threads tid).state = .unused ∨ (s.threads tid).state = .exited) := by
  obtain ⟨hp, hmem⟩ := List.find?_eq_some_iff_append.mp h |>.imp_right fun ⟨as, bs, he, _⟩ => by
    have : tid ∈ List.range' 1 (threadMax - 1) := by rw [he]; simp
    exact this
  rw [List.mem_range'_1] at hmem
  refine ⟨?_, by simpa using hp⟩
  rw [tidIsReal_iff]
  simp only [threadMax] at hmem
  omega

/-- Queueing a record written over a free entry, whatever happened to frames and probes. -/
theorem readyEnqueue_installed (h : SchedOk Q s) (ht : tidIsReal tid) {th : Thread} {own : Set U64}
    (hfree : (s.threads tid).state = .unused ∨ (s.threads tid).state = .exited)
    (hth : s' = { s with
      threads := Function.update s.threads tid { th with inReadyQueue := false }
      frames := s'.frames, usercopyProbes := s'.usercopyProbes })
    (hframes : ∀ a ∉ own, s'.frames a = s.frames a) (hst : th.state = .ready) (hr : th.inReadyQueue = true)
    (hflags : th.inSleepQueue = false ∧ th.inWaitQueue = false ∧ th.waitQueue = 0)
    (hframe : th.trapFrame ≠ 0) (htid : th.tid = tid) :
    ∃ s'', s'.readyEnqueue tid = .ok s'' ∧ Installed Q tid th own s s'' ∧ SchedOk Q s'' := by
  obtain ⟨hr₀, hsl₀, hw₀, hb₀⟩ := (h.coherent tid ht).free_flags hfree
  have hself : s'.threads tid = { th with inReadyQueue := false } := by
    rw [hth]; exact Function.update_self ..
  have hq : QueuesOk Q s' := by
    rw [hth]
    refine h.toQueuesOk.congr rfl rfl (fun _ _ => rfl) fun t _ => ?_
    by_cases hte : t = tid
    · subst hte
      simp only [Function.update_self, Thread.membership, hr₀, hsl₀, hw₀, hb₀, hflags]
    · simp only [Function.update_of_ne hte]
  obtain ⟨s'', heq, hw, he⟩ := readyEnqueue_spec hq ht (by rw [hself]; exact hst) (by rw [hself])
    (by rw [hself]; exact hflags.1) (by rw [hself]; exact hflags.2.1)
  have hthreads : s''.threads = Function.update s.threads tid th := by
    rw [he.threads, hself, hth]
    simp only [Function.update_idem, ← hr]
  refine ⟨s'', heq, ⟨ht, hfree, hthreads, fun a ha => ?_, ?_, ?_, ?_, ?_⟩, h.update ht hthreads he.ok
    ⟨by simp [hr, hst], by simp [hflags, hst], by simp [hflags, hst], by simp [hst], fun _ => hflags.2.2,
      fun _ => hframe⟩ (by rw [htid, h.tid_eq tid (tidIsReal_iff.mp ht).2])⟩
  · rw [he.frames]; exact hframes a ha
  · rw [he.ready, hth]; rfl
  · rw [he.sleep, hth]
  · rw [hw, hth]
  · have := he.statics
    rw [this, hth]
    rfl

theorem Installed.state_running {th : Thread} {own : Set U64} (h : Installed Q tid th own s s')
    (hst : th.state = .ready) (t : Nat) : (s'.threads t).state = .running ↔ (s.threads t).state = .running := by
  rw [h.threads]
  by_cases hte : t = tid
  · subst hte
    rw [Function.update_self, hst]
    rcases h.free with hf | hf <;> simp [hf]
  · rw [Function.update_of_ne hte]

theorem Installed.schedInv {th : Thread} {own : Set U64} (h : Installed Q tid th own s s')
    (hinv : SchedInv Q s) (hok : SchedOk Q s') (hst : th.state = .ready) : SchedInv Q s' := by
  have hs := h.statics
  simp only [Sched.statics, Prod.mk.injEq] at hs
  obtain ⟨hcur, hinit, hstart, -, hdepth⟩ := hs
  exact hinv.transfer hok hdepth hinit hstart hcur (h.state_running hst)

theorem threadCreate_spec (h : SchedInv Q k.sched) (name : Option String) (entry arg : U64) :
    ∃ r k', threadCreate name entry arg k = .ok (r, k') ∧ (r = -1 ∧ k' = k ∨
      ∃ (tid : Nat) (s' : Sched), r = tid ∧ k' = { k with sched := s' } ∧
        Installed Q tid (newThread tid name entry arg (threadStackTop tid k.machine.image)
          (initialFrame tid k.machine.image) 0 0) {initialFrame tid k.machine.image} k.sched s' ∧
        SchedInv Q s') := by
  rw [threadCreate]
  by_cases hguard : !k.sched.threadsInitialized ∨ entry = 0
  · rw [if_pos hguard]
    exact ⟨-1, k, rfl, .inl ⟨rfl, rfl⟩⟩
  rw [if_neg hguard]
  simp only [Kernel.irqSave]
  cases hfree : k.sched.freeTid with
  | none => exact ⟨-1, k, rfl, .inl ⟨rfl, rfl⟩⟩
  | some tid =>
    obtain ⟨ht, hst⟩ := freeTid_spec hfree
    have hlt := (tidIsReal_iff.mp ht).2
    have hvalid : tidIsValid tid = true := decide_eq_true hlt
    obtain ⟨k₁, hinst, hk₁, hth, hframes⟩ : ∃ k₁, installThread tid name entry arg
          { k with machine := { k.machine with sie := false } } = .ok k₁ ∧
        k₁ = { k with machine := { k.machine with sie := false }, sched := k₁.sched } ∧
        k₁.sched = { k.sched with
          threads := Function.update k.sched.threads tid { newThread tid name entry arg
            (threadStackTop tid k.machine.image) (initialFrame tid k.machine.image) 0 0 with
              inReadyQueue := false }
          frames := k₁.sched.frames, usercopyProbes := k₁.sched.usercopyProbes } ∧
        ∀ a ∉ ({initialFrame tid k.machine.image} : Set U64), k₁.sched.frames a = k.sched.frames a := by
      simp only [installThread, hvalid, Bool.not_true, Bool.false_eq_true, ↓reduceIte,
        Sched.usercopyProbeClear, prepareInitialTrapFrame]
      refine ⟨_, rfl, rfl, ?_, fun a ha => ?_⟩
      · simp only [Sched.setThread, Sched.setFrame, Function.update_self, Function.update_idem]
        rfl
      · exact Function.update_of_ne ha _ _
    obtain ⟨s', heq, hi, hok⟩ := readyEnqueue_installed h.ok ht hst hth hframes rfl rfl ⟨rfl, rfl, rfl⟩
      (initialFrame_onStack k.machine.image hlt).ne_zero rfl
    refine ⟨tid, { k with sched := s' }, ?_, .inr ⟨tid, s', rfl, rfl, hi, hi.schedInv h hok rfl⟩⟩
    simp only [hinst, ok_bind, heq]
    rw [hk₁]
    rfl

theorem threadCreateUser_spec (h : SchedInv Q k.sched) (name : Option String) (task : U64) :
    ∃ r k', threadCreateUser name task k = .ok (r, k') ∧ (r = -1 ∧ k' = k ∨
      ∃ (tid : Nat) (s' : Sched), r = tid ∧ userTaskIsReady task k ∧
        k' = { k with sched := s', contexts := k'.contexts } ∧
        Installed Q tid (newThread tid name 0 0 (threadStackTop tid k.machine.image) (k.tasks task).trapContext
          (userTaskAddressSpace task) task) ∅ k.sched s' ∧
        SchedInv Q s') := by
  rw [threadCreateUser]
  by_cases hguard : !k.sched.threadsInitialized ∨ !userTaskIsReady task k
  · rw [if_pos hguard]
    exact ⟨-1, k, rfl, .inl ⟨rfl, rfl⟩⟩
  rw [if_neg hguard]
  simp only [not_or, Bool.not_eq_true', Bool.not_eq_false] at hguard
  obtain ⟨-, hready⟩ := hguard
  simp only [Kernel.irqSave]
  cases hfree : k.sched.freeTid with
  | none => exact ⟨-1, k, rfl, .inl ⟨rfl, rfl⟩⟩
  | some tid =>
    obtain ⟨ht, hst⟩ := freeTid_spec hfree
    have hlt := (tidIsReal_iff.mp ht).2
    have hvalid : tidIsValid tid = true := decide_eq_true hlt
    have hcontext : (k.tasks task).trapContext ≠ 0 := by
      simp only [userTaskIsReady, Bool.and_eq_true, decide_eq_true_eq, ne_eq] at hready
      exact hready.2
    obtain ⟨k₁, hinst, hk₁, hth, hframes⟩ : ∃ k₁, installUserThread tid name task
          { k with machine := { k.machine with sie := false } } = .ok k₁ ∧
        k₁ = { k with
          machine := { k.machine with sie := false }, sched := k₁.sched, contexts := k₁.contexts } ∧
        k₁.sched = { k.sched with
          threads := Function.update k.sched.threads tid { newThread tid name 0 0
            (threadStackTop tid k.machine.image) (k.tasks task).trapContext (userTaskAddressSpace task) task with
              inReadyQueue := false }
          frames := k₁.sched.frames, usercopyProbes := k₁.sched.usercopyProbes } ∧
        k₁.sched.frames = k.sched.frames := by
      have hframe : userTaskTrapFrame task { k with machine := { k.machine with sie := false } } =
          (k.tasks task).trapContext := if_pos hready
      have hready' : userTaskIsReady task { k with machine := { k.machine with sie := false } } = true := hready
      have hset : ∀ s : Sched, userTaskSetKernelSp task (threadStackTop tid k.machine.image)
          { k with machine := { k.machine with sie := false }, sched := s } =
            (0, { k with
              machine := { k.machine with sie := false }
              sched := s
              contexts := Function.update k.contexts (k.tasks task).trapContext
                { k.contexts (k.tasks task).trapContext with
                  kernelSp := threadStackTop tid k.machine.image } }) := fun s =>
        if_neg (by
          rintro (hn | hz)
          · have hn : (!userTaskIsReady task k) = true := hn
            simp [hready] at hn
          · exact threadStackTop_ne_zero k.machine.image hlt hz)
      simp only [installUserThread, hvalid, hframe, hready', hcontext, hset, Sched.usercopyProbeClear,
        Bool.not_true, Bool.false_eq_true, or_self, ↓reduceIte, Int.lt_irrefl]
      exact ⟨_, rfl, rfl, rfl, rfl⟩
    obtain ⟨s', heq, hi, hok⟩ := readyEnqueue_installed h.ok ht hst hth
      (fun a (_ : a ∉ (∅ : Set U64)) => congrFun hframes a) rfl rfl ⟨rfl, rfl, rfl⟩ hcontext rfl
    refine ⟨tid, { k with sched := s', contexts := k₁.contexts }, ?_,
      .inr ⟨tid, s', rfl, hready, rfl, hi, hi.schedInv h hok rfl⟩⟩
    simp only [hinst, ok_bind, heq]
    rw [hk₁]
    rfl

/-! ### Start -/

theorem threadStart_spec (h : SchedInv Q k.sched) (hst : k.sched.threadsStarted = false) :
    ∃ s₁, threadStart k = .ok ((k.sched.threads k.sched.next).trapFrame,
        { k with machine := { k.machine with sie := false }, sched := { s₁ with
          threadsStarted := true, rescheduleRequested := k.sched.rescheduleRequested } }) ∧
      Dispatched k.sched.next k.sched s₁ ∧
      SchedInv Q { s₁ with threadsStarted := true, rescheduleRequested := k.sched.rescheduleRequested } := by
  have hh : Halted k.sched := by
    rcases h.phase with ⟨-, -, hh⟩ | ⟨hst', -⟩
    · exact hh
    · rw [hst] at hst'; cases hst'
  obtain ⟨s₁, hpick, hframe, -, -, hd, hok, hrun⟩ := pickNextThread_spec h.ok hh
  have hstat := hd.statics
  simp only [Sched.statics, Prod.mk.injEq] at hstat
  obtain ⟨-, -, hinit, -, -, hdepth⟩ := hstat
  have hsched : s₁.rescheduleRequested = k.sched.rescheduleRequested := by
    rw [Sched.pickNextThread] at hpick
    obtain ⟨⟨tid, s₂⟩, hdeq, hpick⟩ := bind_eq_ok.mp hpick
    have hs₂ : s₂.rescheduleRequested = k.sched.rescheduleRequested := by
      rw [Sched.readyDequeue] at hdeq
      simp only at hdeq
      split at hdeq
      · cases hdeq; rfl
      · split at hdeq
        · cases hdeq
        · split at hdeq
          · cases hdeq
          · cases hdeq; rfl
    simp only at hpick
    split at hpick <;>
      (simp only [Except.ok.injEq, Prod.mk.injEq] at hpick; rw [← hpick.2]; exact hs₂)
  refine ⟨s₁.runThread k.sched.next, ?_, hd, ⟨⟨hok.toQueuesOk.congr rfl rfl (fun _ _ => rfl) fun _ _ => rfl,
    hok.coherent, hok.null, hok.tid_eq⟩, hdepth.trans h.depth, hinit.trans h.initialized,
    .inr ⟨rfl, k.sched.next, hrun.current, hrun.lt, hrun.running⟩⟩⟩
  rw [threadStart]
  simp only [h.initialized, hst, Bool.not_true, Bool.false_eq_true, or_self, ↓reduceIte, Kernel.irqSave,
    hpick, ok_bind]
  rw [Sched.setThread_self, ← hsched, ← hframe]
  rfl

/-! ### Wait queues -/

theorem waitQueueInit_spec (h : SchedInv Q k.sched) (hq : queue ∉ Q) (hz : queue ≠ 0) (name : Option String) :
    ∃ s', waitQueueInit queue name k = .ok { k with sched := s' } ∧ s'.waits queue = [] ∧
      s'.threads = k.sched.threads ∧ s'.frames = k.sched.frames ∧ s'.ready = k.sched.ready ∧
      s'.sleepQueue = k.sched.sleepQueue ∧ s'.statics = k.sched.statics ∧
      (∀ q ≠ queue, s'.waitQueues q = k.sched.waitQueues q) ∧ SchedInv (insert queue Q) s' := by
  let ring := { (k.sched.waitQueues queue).ring with head := 0, tail := 0, count := 0 }
  let s' := { k.sched with waitQueues := Function.update k.sched.waitQueues queue { ring := ring, name := name } }
  have hne : ∀ q ≠ queue, s'.waitQueues q = k.sched.waitQueues q := fun q hne => Function.update_of_ne hne ..
  have hself : s'.waitQueues queue = { ring := ring, name := name } := Function.update_self ..
  have hempty : s'.waits queue = [] := by rw [Sched.waits, hself]; rfl
  have hwaits : ∀ q ≠ queue, s'.waits q = k.sched.waits q := fun q hqe => by
    rw [Sched.waits, hne q hqe, Sched.waits]
  have hQ := h.ok.toQueuesOk
  have hold : ∀ q ∈ Q, q ≠ queue := fun q hqQ he => hq (he ▸ hqQ)
  refine ⟨s', if_neg hz, hempty, rfl, rfl, rfl, rfl, rfl, hne,
    h.transfer ⟨⟨hQ.ready_wf, hQ.ready_nodup, hQ.mem_ready, hQ.sleep_nodup, hQ.mem_sleep, ?_, ?_, ?_, ?_, ?_⟩,
      h.ok.coherent, h.ok.null, h.ok.tid_eq⟩ rfl rfl rfl rfl fun _ => Iff.rfl⟩
  · rintro q (rfl | hqQ)
    · rw [hself]; exact RingBuffer.WF.empty _ (by decide)
    · rw [hne q (hold q hqQ)]; exact hQ.wait_wf q hqQ
  · rintro q (rfl | hqQ)
    · rw [hempty]; exact List.nodup_nil
    · rw [hwaits q (hold q hqQ)]; exact hQ.wait_nodup q hqQ
  · rintro q (rfl | hqQ) t
    · rw [hempty]
      refine iff_of_false List.not_mem_nil ?_
      rintro ⟨ht, hin, he⟩
      rw [← he] at hq
      exact hq (hQ.wait_init t ht hin)
    · rw [hwaits q (hold q hqQ)]; exact hQ.mem_wait q hqQ t
  · exact fun t ht hin => .inr (hQ.wait_init t ht hin)
  · rintro (he | hin)
    · exact hz he.symm
    · exact hQ.zero_notMem hin

theorem wakeOne_spec (h : SchedOk Q s) (hq : queue ∈ Q) :
    ∃ tid s', s.wakeOne queue = .ok (tid, s') ∧ SchedOk Q s' ∧
      (tid = threadInvalidTid ∧ s.waits queue = [] ∧ s' = s ∨
        (s.waits queue).head? = some tid ∧ Woken Q tid waitOk s s') := by
  cases hw : s.waits queue with
  | nil => exact ⟨_, s, wakeOne_nil hw, h, .inl ⟨rfl, rfl, rfl⟩⟩
  | cons tid rest =>
    obtain ⟨s', heq, hwoken, hok⟩ := wakeOne_cons h hq hw
    exact ⟨tid, s', heq, hok, .inr ⟨rfl, hwoken⟩⟩

theorem Woken.setDepth {result : Int} (h : Woken Q tid result s s') (depth : Nat) :
    Woken Q tid result (s.setDepth depth) (s'.setDepth depth) where
  real := h.real
  blocked := h.blocked
  threads := h.threads
  frames := h.frames
  ready := h.ready
  sleep := h.sleep
  waits := h.waits
  statics := by
    have := h.statics
    simp only [Sched.statics, Prod.mk.injEq] at this
    simp only [Sched.statics, Sched.setDepth, this]

theorem WokenSeq.setDepth (h : WokenSeq Q (EventWake queue) s s') (depth : Nat) :
    WokenSeq Q (EventWake queue) (s.setDepth depth) (s'.setDepth depth) := by
  induction h with
  | nil => exact .nil _
  | cons hok hp hw _ ih => exact .cons (hok.setDepth _) hp (hw.setDepth _) ih

theorem Sched.preemptEnable_of_statics (h : s'.statics = s.preemptDisable.statics) :
    s'.preemptEnable = .ok (s'.setDepth s.preemptDisableDepth) := by
  have hd : s'.preemptDisableDepth = s.preemptDisableDepth + 1 := congrArg (·.2.2.2.2.2) h
  rw [Sched.preemptEnable, hd, if_neg (Nat.succ_ne_zero _)]
  rfl

theorem waitQueueWakeOne_spec (h : SchedInv Q k.sched) (hq : queue ∈ Q) :
    ∃ tid s', waitQueueWakeOne queue k = .ok (tid, { k with sched := s' }) ∧ SchedInv Q s' ∧
      (tid = threadInvalidTid ∧ k.sched.waits queue = [] ∧ s' = k.sched ∨
        (k.sched.waits queue).head? = some tid ∧ Woken Q tid waitOk k.sched s') := by
  have hs : SchedOk Q k.sched.preemptDisable := h.ok.setDepth _
  obtain ⟨tid, s₁, heq, hok, hcase⟩ := wakeOne_spec hs hq
  have hstat : s₁.statics = k.sched.preemptDisable.statics := by
    rcases hcase with ⟨-, -, rfl⟩ | ⟨-, hw⟩
    · rfl
    · exact hw.statics
  have hcase' : tid = threadInvalidTid ∧ k.sched.waits queue = [] ∧
      s₁.setDepth k.sched.preemptDisableDepth = k.sched ∨
        (k.sched.waits queue).head? = some tid ∧
          Woken Q tid waitOk k.sched (s₁.setDepth k.sched.preemptDisableDepth) := by
    rcases hcase with ⟨hinv, hnil, rfl⟩ | ⟨hhead, hw⟩
    · exact .inl ⟨hinv, hnil, rfl⟩
    · exact .inr ⟨hhead, hw.setDepth k.sched.preemptDisableDepth⟩
  refine ⟨tid, s₁.setDepth k.sched.preemptDisableDepth, ?_, ?_, hcase'⟩
  · rw [waitQueueWakeOne, if_neg (h.ok.queue_ne_zero hq)]
    simp only [Kernel.irqSave, heq, ok_bind, Sched.preemptEnable_of_statics hstat]
    rfl
  · rcases hcase' with ⟨-, -, he⟩ | ⟨hhead, hw⟩
    · rw [he]; exact h
    · exact (WokenSeq.cons (P := EventWake queue) h.ok ⟨hhead, rfl⟩ hw (.nil _)).schedInv h (hok.setDepth _)

theorem waitQueueWakeAll_spec (h : SchedInv Q k.sched) (hq : queue ∈ Q) :
    ∃ s', waitQueueWakeAll queue k = .ok { k with sched := s' } ∧ SchedInv Q s' ∧
      WokenSeq Q (EventWake queue) k.sched s' ∧ s'.waits queue = [] := by
  have hs : SchedOk Q k.sched.preemptDisable := h.ok.setDepth _
  obtain ⟨s₁, heq, hseq, hok, hnil⟩ := wakeAllLoop_spec hq
    ((k.sched.preemptDisable.waitQueues queue).ring.count + 1) _ hs (by
      rw [Sched.waits, RingBuffer.length_toList]; exact Nat.lt_succ_self _)
  have hseq' := hseq.setDepth k.sched.preemptDisableDepth
  refine ⟨s₁.setDepth k.sched.preemptDisableDepth, ?_, hseq'.schedInv h (hok.setDepth _), hseq', hnil⟩
  rw [waitQueueWakeAll, if_neg (h.ok.queue_ne_zero hq)]
  simp only [Kernel.irqSave, heq, ok_bind, Sched.preemptEnable_of_statics hseq.statics]
  rfl

/-! ### Before the start -/

theorem takeTrap_timer_unstarted {mtime : Nat} {regs : TrapFrame} (h : SchedInv Q k.sched)
    (hcur : k.sched.currentThread = none)
    (hcause : regs.mcause = mcauseInterrupt ||| scauseSupervisorTimerInterrupt)
    (hrun : takeTrap mtime frame regs k = .ok k') :
    ∃ timer, timer.ticks = k.timer.ticks + 1 ∧
      Returned frame { k with sched := k.sched.setFrame frame fun _ => regs, timer := timer } k' := by
  have hst : (trapEnter frame regs k).sched.threadsStarted = false := by
    rcases h.phase with ⟨hst, -⟩ | ⟨-, d, hrun⟩
    · exact hst
    · rw [hrun.current] at hcur; cases hcur
  let timer : Timer := { ticks := k.timer.ticks + 1, nextCompare := timerNextCompare mtime k.timer.nextCompare }
  let k₁ : Kernel := { trapEnter frame regs k with timer := timer }
  have hcur₁ : k₁.sched.currentThread = none := hcur
  have htick : timerHandleInterrupt mtime (trapEnter frame regs k) = .ok k₁ := by
    rw [timerHandleInterrupt, threadOnTimerTick]
    exact if_pos (by simpa using hst)
  have hpre : threadMaybePreemptFromTrap frame k₁ = .ok (frame, k₁) := by
    rw [threadMaybePreemptFromTrap, hcur₁]
    split
    · rfl
    · have hnot : k₁.sched.currentIsPreemptible = false := by
        rw [Sched.currentIsPreemptible, hcur₁]
        exact Bool.and_false _
      rw [hnot]
      rfl
  rw [takeTrap, trapHandle_timer (by rw [trapEnter_frame]; exact hcause), htick] at hrun
  simp only [ok_bind, hpre, resuming_ok] at hrun
  obtain ⟨⟨r, k₂⟩, hret, hrun⟩ := bind_eq_ok.mp hrun
  cases hrun
  refine ⟨timer, rfl, ?_⟩
  cases trapReturnFromHandler_ok hret with
  | supervisor => exact .supervisor
  | user hcur => rw [hcur₁] at hcur; cases hcur

/-! ### Initialisation -/

/-- `thread_init` establishes the invariant when the wait queues initialised before it are empty. -/
theorem threadInit_spec (k : Kernel)
    (hQ : ∀ q ∈ Q, q ≠ 0 ∧ (k.sched.waitQueues q).ring.WF queueCap ∧ k.sched.waits q = []) :
    ∃ s', threadInit k = .ok { k with sched := s' } ∧ SchedInv Q s' ∧ s'.threadsStarted = false ∧
      s'.rescheduleRequested = false ∧ (∀ t, tidIsReal t → s'.threads t = unusedThread t) ∧
      s'.threads threadNullTid = { newThread threadNullTid (some "null") k.machine.image.nullTask 0
        (threadStackTop threadNullTid k.machine.image) (initialFrame threadNullTid k.machine.image) 0 0 with
          inReadyQueue := false } := by
  obtain ⟨s', heq, hnull, hothers, hready, hsleep, hwaits, hstat⟩ : ∃ s', threadInit k = .ok { k with sched := s' } ∧
      s'.threads threadNullTid = { newThread threadNullTid (some "null") k.machine.image.nullTask 0
        (threadStackTop threadNullTid k.machine.image) (initialFrame threadNullTid k.machine.image) 0 0 with
          inReadyQueue := false } ∧
      (∀ t < threadMax, t ≠ threadNullTid → s'.threads t = unusedThread t) ∧
      s'.readyQueue = { k.sched.readyQueue with head := 0, tail := 0, count := 0 } ∧ s'.sleepQueue = [] ∧
      s'.waitQueues = k.sched.waitQueues ∧ s'.statics.2 = (none, true, false, false, 0) := by
    have hvalid : tidIsValid threadNullTid = true := by decide
    simp only [threadInit, installThread, hvalid, Bool.not_true, Bool.false_eq_true, ↓reduceIte,
      Sched.usercopyProbeClear, prepareInitialTrapFrame, Kernel.irqSave, ok_bind]
    refine ⟨_, rfl, ?_, fun t ht hne => ?_, rfl, rfl, rfl, rfl⟩
    · simp only [Sched.setThread_self, Sched.setFrame_threads]
      rfl
    · simp only [Sched.setThread, Sched.setFrame_threads, Function.update_of_ne hne]
      exact if_pos ht
  have hreal : ∀ t, tidIsReal t → s'.threads t = unusedThread t := fun t ht =>
    hothers t (tidIsReal_iff.mp ht).2 (tidIsReal_ne_null ht)
  have hrlist : s'.ready = [] := by rw [Sched.ready, hready]; rfl
  have hwlist : ∀ q, s'.waits q = k.sched.waits q := fun q => by rw [Sched.waits, hwaits, Sched.waits]
  simp only [Sched.statics, Prod.mk.injEq] at hstat
  obtain ⟨hcur, hinit, hst, hreq, hdepth⟩ := hstat
  have hqueues : QueuesOk Q s' := by
    refine ⟨?_, by rw [hrlist]; exact List.nodup_nil, fun t => ?_, by rw [hsleep]; exact List.nodup_nil,
      fun t => ?_, fun q hq => by rw [hwaits]; exact (hQ q hq).2.1,
      fun q hq => by rw [hwlist, (hQ q hq).2.2]; exact List.nodup_nil, fun q hq t => ?_,
      fun t ht hin => ?_, fun hz => (hQ 0 hz).1 rfl⟩
    · rw [hready]; exact RingBuffer.WF.empty _ (by decide)
    · rw [hrlist]
      refine iff_of_false List.not_mem_nil ?_
      rintro ⟨ht, hin⟩
      rw [hreal t ht] at hin; cases hin
    · rw [hsleep]
      refine iff_of_false List.not_mem_nil ?_
      rintro ⟨ht, hin⟩
      rw [hreal t ht] at hin; cases hin
    · rw [hwlist, (hQ q hq).2.2]
      refine iff_of_false List.not_mem_nil ?_
      rintro ⟨ht, hin, -⟩
      rw [hreal t ht] at hin; cases hin
    · rw [hreal t ht] at hin; cases hin
  refine ⟨s', heq, ⟨⟨hqueues, fun t ht => ?_, ?_, fun t ht => ?_⟩, hdepth, hinit, .inl ⟨hst, hcur, fun t ht => ?_⟩⟩,
    hst, hreq, hreal, hnull⟩
  · rw [hreal t ht]
    exact ⟨by simp [unusedThread], by simp [unusedThread], by simp [unusedThread], by simp [unusedThread],
      fun _ => rfl, by simp [unusedThread]⟩
  · rw [hnull]
    exact ⟨.inl rfl, ⟨rfl, rfl, rfl⟩, (initialFrame_onStack k.machine.image (by decide)).ne_zero, rfl⟩
  · by_cases hte : t = threadNullTid
    · subst hte; rw [hnull]; rfl
    · rw [hothers t ht hte]; rfl
  · by_cases hte : t = threadNullTid
    · subst hte; rw [hnull]; simp [newThread]
    · rw [hothers t ht hte]; simp [unusedThread]

end QemuRtos
