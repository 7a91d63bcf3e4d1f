import QemuRtos.Memory.ProbedCopy
import QemuRtos.Memory.UsercopySpec
import QemuRtos.System

/-!
# A fault in a probed copy is survived

The copy loop keeps the registers `copied` bytes into the two buffers. A round moves one byte; a fault in it goes
through the trap handler to the fixup label with the bytes before it moved. Either way the C caller finds the probe and
the two bits of `sstatus` to put back.
-/

namespace QemuRtos

open Lib

variable {E : CopyEnv} {dir : CopyDir} {h h' : Hart} {k k' : Kernel} {r : CopyRegs} {us ue dst src len va : U64} {n t : Nat}

/-! ### The text -/

theorem find_of_pairwise {α : Type} {f : α → U64} {l : List α} (h : (l.map f).Pairwise (· < ·)) {a : α}
    (ha : a ∈ l) : l.find? (fun x => f x = f a) = some a := by
  induction l with
  | nil => cases ha
  | cons x l ih =>
    rw [List.map_cons, List.pairwise_cons] at h
    cases ha with
    | head => simp
    | tail _ ha =>
      have hne : f x ≠ f a := by
        intro he
        have hlt := h.1 (f a) (List.mem_map_of_mem ha)
        rw [he] at hlt
        exact absurd hlt (BitVec.lt_irrefl _)
      rw [List.find?_cons_of_neg (by simpa using hne)]
      exact ih h.2 ha

theorem CopyText.fetch_fixup (T : CopyText) : T.fetch T.copyFixup = some .liFault :=
  find_of_pairwise T.ordered (by decide)

theorem CopyText.loop_in (T : CopyText) {i : CopyInstr} (hi : i = .lbu ∨ i = .sb) :
    T.copyStart.toNat ≤ (T.addr i).toNat ∧ (T.addr i).toNat < T.copyEnd.toNat := by
  have h := T.ordered
  simp only [copyText, List.map_cons, List.map_nil, List.pairwise_cons, List.mem_cons, List.not_mem_nil, or_false,
    forall_eq_or_imp, forall_eq, BitVec.lt_def] at h
  obtain rfl | rfl := hi
  · exact ⟨h.1.1.le, h.2.1.2.2.2.2.2.1⟩
  · exact ⟨h.1.2.1.le, h.2.2.1.2.2.2.2.1⟩

theorem CopyText.bounds (T : CopyText) : T.copyStart.toNat < T.copyEnd.toNat ∧ T.copyFixup ≠ 0 := by
  have h := T.ordered
  simp only [copyText, List.map_cons, List.map_nil, List.pairwise_cons, List.mem_cons, List.not_mem_nil, or_false,
    forall_eq_or_imp, forall_eq, BitVec.lt_def] at h
  refine ⟨h.1.2.2.2.2.2.2.1, fun hz => ?_⟩
  have hlt : (T.addr .beqz).toNat < T.copyFixup.toNat := h.1.2.2.2.2.2.2.2.2.1
  rw [hz] at hlt
  exact absurd hlt (Nat.not_lt_zero _)

/-! ### A round of the loop -/

theorem copyRun_step (hr : ¬(r.pc = .retOk ∨ r.pc = .retFault)) :
    copyRun E dir us (n + 1) r h = copyStep E dir us r h >>= fun x => copyRun E dir us n x.1 x.2 := by
  rw [copyRun, if_neg hr]

/-- The user's address of a byte of the copy. -/
def CopyDir.user (dir : CopyDir) (dst src : U64) : U64 := if dir = .toUser then dst else src

theorem copyRun_round (n : Nat) {a0 a1 a2 : U64} (t0 : U64) (ha2 : a2 ≠ 0) (hok : userFaults E us (dir.user a0 a1) h = false) :
    ∃ t0', copyRun E dir us (n + 7) ⟨.beqz, a0, a1, a2, t0⟩ h = copyRun E dir us n ⟨.beqz, a0 + 1, a1 + 1, a2 - 1, t0'⟩
      (h.setMem (Function.update h.mem (E.translate a0) (h.mem (E.translate a1)))) := by
  refine ⟨(h.mem (E.translate a1)).setWidth 64, ?_⟩
  have hread : ¬(dir = .fromUser ∧ userFaults E us a1 h = true) := by
    rintro ⟨rfl, hf⟩
    exact absurd (hf.symm.trans hok) (by decide)
  have hwrite : ¬(dir = .toUser ∧ userFaults E us a0 h = true) := by
    rintro ⟨rfl, hf⟩
    exact absurd (hf.symm.trans hok) (by decide)
  have hbyte : ((h.mem (E.translate a1)).setWidth 64).setWidth 8 = h.mem (E.translate a1) := by
    rw [BitVec.setWidth_setWidth_of_le _ (by decide), BitVec.setWidth_eq]
  rw [copyRun_step (by simp), copyStep, ok_bind]
  dsimp only
  rw [if_neg ha2, copyRun_step (by simp), copyStep]
  dsimp only
  rw [if_neg hread, ok_bind, copyRun_step (by simp), copyStep]
  dsimp only
  rw [if_neg hwrite, ok_bind, hbyte, copyRun_step (by simp), copyStep, ok_bind, copyRun_step (by simp), copyStep,
    ok_bind, copyRun_step (by simp), copyStep, ok_bind, copyRun_step (by simp), copyStep, ok_bind]

/-! ### A fault -/

/-- The probe a copy arms. -/
def copyProbe (E : CopyEnv) (dir : CopyDir) (us ue : U64) : UsercopyProbe :=
  { active := true
    pcStart := E.text.copyStart
    pcEnd := E.text.copyEnd
    fixupPc := E.text.copyFixup
    userStart := us
    userEnd := ue
    faultCause := dir.faultCause }

/-- The current thread, number `t`, is in a probed copy. -/
structure Probed (E : CopyEnv) (dir : CopyDir) (us ue : U64) (t : Nat) (k : Kernel) : Prop where
  current : ∃ c, k.sched.currentThread = some c ∧ (k.sched.threads c).tid = t
  real : tidIsReal t = true
  probe : k.sched.usercopyProbes t = copyProbe E dir us ue
  others : ∀ u, u ≠ t → (k.sched.usercopyProbes u).active = false

theorem trapHandle_pageFault (mtime : Nat) (frame : U64) (dir : CopyDir) (k : Kernel)
    (hcause : (k.sched.frames frame).mcause = dir.faultCause) : trapHandle mtime frame k =
      (let (recovered, k) := threadUsercopyProbeRecover frame dir.faultCause k
       if recovered then .ok (.resume frame, k) else .error "page fault") := by
  unfold trapHandle
  dsimp only
  rw [hcause]
  cases dir
  · rw [show CopyDir.fromUser.faultCause &&& mcauseInterrupt = 0 by decide,
      show CopyDir.fromUser.faultCause &&& mcauseCodeMask = CopyDir.fromUser.faultCause by decide,
      if_neg fun h => absurd h.2.1 (by decide), if_neg fun h => absurd h.2 (by decide), if_neg fun h => h.1 rfl,
      if_neg fun h => absurd h.2 (by decide), if_pos ⟨rfl, by decide⟩]
  · rw [show CopyDir.toUser.faultCause &&& mcauseInterrupt = 0 by decide,
      show CopyDir.toUser.faultCause &&& mcauseCodeMask = CopyDir.toUser.faultCause by decide,
      if_neg fun h => absurd h.2.1 (by decide), if_neg fun h => absurd h.2 (by decide), if_neg fun h => h.1 rfl,
      if_neg fun h => absurd h.2 (by decide), if_pos ⟨rfl, by decide⟩]

theorem threadUsercopyProbeRecover_armed {frame : U64} (hp : Probed E dir us ue t k) (hframe : frame ≠ 0)
    (hpc : E.text.copyStart.toNat ≤ (k.sched.frames frame).mepc.toNat ∧
      (k.sched.frames frame).mepc.toNat < E.text.copyEnd.toNat)
    (hva : us.toNat ≤ (k.sched.frames frame).mtval.toNat ∧ (k.sched.frames frame).mtval.toNat < ue.toNat) :
    ∃ k', threadUsercopyProbeRecover frame dir.faultCause k = (true, k') ∧ k'.machine = k.machine ∧
      k'.sched.currentThread = k.sched.currentThread ∧ k'.sched.threads = k.sched.threads ∧
      k'.sched.frames frame = { k.sched.frames frame with mepc := E.text.copyFixup } ∧
      k'.sched.usercopyProbes =
        Function.update k.sched.usercopyProbes t { copyProbe E dir us ue with active := false } := by
  obtain ⟨c, hc, htid⟩ := hp.current
  have hnull : t ≠ threadNullTid := by
    rintro rfl
    exact absurd hp.real (by decide)
  unfold threadUsercopyProbeRecover
  rw [hc]
  dsimp only
  rw [htid, hp.probe, if_neg, if_neg]
  · exact ⟨_, rfl, rfl, hc, rfl, Function.update_self _ _ _, rfl⟩
  · dsimp only [copyProbe]
    rintro (h | h | h | h | h | h)
    · exact absurd h (by decide)
    · exact h rfl
    · exact absurd (BitVec.lt_def.mp h) (by omega)
    · exact absurd (BitVec.le_def.mp h) (by omega)
    · exact absurd (BitVec.lt_def.mp h) (by omega)
    · exact absurd (BitVec.le_def.mp h) (by omega)
  · rintro (h | h | h)
    · exact hframe h
    · exact hnull h
    · cases dir <;> exact absurd h (by decide)

/-- The thread after a fault: its probe is no longer active. -/
structure Recovered (k k' : Kernel) : Prop where
  machine : k'.machine = k.machine
  current : k'.sched.currentThread = k.sched.currentThread
  threads : k'.sched.threads = k.sched.threads
  idle : ∀ u, (k'.sched.usercopyProbes u).active = false

/-- A fault in the loop goes to the fixup. -/
theorem copyTrap_recovers (hp : Probed E dir us ue t h.kernel) (hpc : r.pc = .lbu ∨ r.pc = .sb)
    (hva : us.toNat ≤ va.toNat ∧ va.toNat < ue.toNat) :
    ∃ k', copyTrap E dir.faultCause va r h = .ok ({ r with pc := .liFault }, { h with kernel := k' }) ∧
      Recovered h.kernel k' := by
  let save : TrapFrame → TrapFrame := fun f =>
    { f with a0 := r.a0, a1 := r.a1, a2 := r.a2, t0 := r.t0, mepc := E.text.addr r.pc, mcause := dir.faultCause,
             mtval := va }
  have hframe : (h.kernel.setFrame E.frame save).sched.frames E.frame = save (h.kernel.sched.frames E.frame) :=
    Function.update_self _ _ _
  have hp₁ : Probed E dir us ue t (h.kernel.setFrame E.frame save) := ⟨hp.current, hp.real, hp.probe, hp.others⟩
  obtain ⟨k', hrecover, hmachine, hcurrent, hthreads, hframe', hprobes⟩ :=
    threadUsercopyProbeRecover_armed hp₁ E.frame_ne (by rw [hframe]; exact E.text.loop_in hpc) (by rw [hframe]; exact hva)
  refine ⟨k', ?_, hmachine, hcurrent, hthreads, fun u => ?_⟩
  · unfold copyTrap
    show (trapHandle E.mtime E.frame (h.kernel.setFrame E.frame save) >>= _) = _
    rw [trapHandle_pageFault _ _ dir _ (by rw [hframe]), hrecover]
    dsimp only
    rw [if_pos rfl, ok_bind]
    dsimp only
    rw [hframe', hframe]
    dsimp only
    rw [E.text.fetch_fixup]
  · rw [hprobes]
    by_cases hu : u = t
    · rw [hu, Function.update_self]
    · rw [Function.update_of_ne hu]
      exact hp.others u hu

/-! ### The routine -/

/-- The status of a copy of `len` bytes and how many of them are moved. -/
def copyOutcome (E : CopyEnv) (len : Nat) : Int × Nat :=
  match E.fault with
  | some i => if i < len then (usercopyErrFault, i) else (usercopyOk, len)
  | none => (usercopyOk, len)

theorem copyOutcome_fault {len i : Nat} (h : E.fault = some i) (hi : i < len) :
    copyOutcome E len = (usercopyErrFault, i) := by
  unfold copyOutcome
  rw [h]
  exact if_pos hi

theorem copyOutcome_ok {len : Nat} (h : ∀ i, E.fault = some i → len ≤ i) : copyOutcome E len = (usercopyOk, len) := by
  unfold copyOutcome
  cases hf : E.fault with
  | none => rfl
  | some i => exact if_neg (Nat.not_lt.mpr (h i hf))

/-- What the routine leaves as it was, with the memory it leaves. -/
structure Ran (t : Nat) (h : Hart) (mem : Mem) (h' : Hart) : Prop where
  sum : h'.sum = h.sum
  machine : h'.kernel.machine = { h.kernel.machine with mem := mem }
  current : h'.kernel.sched.currentThread = h.kernel.sched.currentThread
  threads : h'.kernel.sched.threads = h.kernel.sched.threads
  others : ∀ u, u ≠ t → (h'.kernel.sched.usercopyProbes u).active = false

theorem Recovered.ran (hr : Recovered h.kernel k') : Ran t h h.mem { h with kernel := k' } where
  sum := rfl
  machine := hr.machine
  current := hr.current
  threads := hr.threads
  others u _ := hr.idle u

theorem Ran.setMem {mem mem' : Mem} (hr : Ran t (h.setMem mem) mem' h') : Ran t h mem' h' where
  sum := hr.sum
  machine := hr.machine
  current := hr.current
  threads := hr.threads
  others := hr.others

theorem copyRun_return (hr : r.pc = .liOk ∨ r.pc = .liFault) : copyRun E dir us (n + 2) r h =
    .ok (if r.pc = .liOk then usercopyOk else usercopyErrFault, h) := by
  obtain ⟨pc, a0, a1, a2, t0⟩ := r
  obtain hr | hr := hr
  · dsimp only at hr
    subst hr
    rw [copyRun_step (by simp), copyStep, ok_bind, copyRun, if_pos (.inl rfl)]
    rfl
  · dsimp only at hr
    subst hr
    rw [copyRun_step (by simp), copyStep, ok_bind, copyRun, if_pos (.inr rfl)]
    rfl

theorem copyRun_fault (n : Nat) {a0 a1 a2 : U64} (t0 : U64) (hp : Probed E dir us ue t h.kernel) (ha2 : a2 ≠ 0)
    (hfault : userFaults E us (dir.user a0 a1) h = true)
    (hva : us.toNat ≤ (dir.user a0 a1).toNat ∧ (dir.user a0 a1).toNat < ue.toNat) :
    ∃ h', copyRun E dir us (n + 5) ⟨.beqz, a0, a1, a2, t0⟩ h = .ok (usercopyErrFault, h') ∧ Ran t h h.mem h' := by
  rw [copyRun_step (by simp), copyStep, ok_bind]
  dsimp only
  rw [if_neg ha2, copyRun_step (by simp), copyStep]
  dsimp only
  cases dir with
  | fromUser =>
    rw [if_pos ⟨rfl, hfault⟩]
    obtain ⟨k', htrap, hrec⟩ := copyTrap_recovers (r := ⟨.lbu, a0, a1, a2, t0⟩) hp (.inl rfl) hva
    refine ⟨_, ?_, hrec.ran⟩
    rw [show copyTrap E mcauseLoadPageFault a1 ⟨.lbu, a0, a1, a2, t0⟩ h = _ from htrap, ok_bind,
      copyRun_return (n := n + 1) (.inr rfl)]
    rfl
  | toUser =>
    rw [if_neg fun hd => absurd hd.1 (by decide), ok_bind, copyRun_step (by simp), copyStep]
    dsimp only
    rw [if_pos ⟨rfl, hfault⟩]
    obtain ⟨k', htrap, hrec⟩ :=
      copyTrap_recovers (r := ⟨.sb, a0, a1, a2, (h.mem (E.translate a1)).setWidth 64⟩) hp (.inr rfl) hva
    refine ⟨_, ?_, hrec.ran⟩
    rw [show copyTrap E mcauseStorePageFault a0 ⟨.sb, a0, a1, a2, (h.mem (E.translate a1)).setWidth 64⟩ h = _ from htrap,
      ok_bind, copyRun_return (.inr rfl)]
    rfl

/-- The address of byte `i` of a buffer. -/
def byteAddr (E : CopyEnv) (buf : U64) (i : Nat) : Nat := E.translate (buf + BitVec.ofNat 64 i)

/-- The routine moves the bytes before the one that faults, and tells whether there was one. The induction is on the
bytes that are left. -/
theorem copyRun_spec (left : Nat) (mem : Mem) (copied : Nat) (hp : Probed E dir us ue t h.kernel) (hsum : h.sum = true)
    (hleft : copied + left = len.toNat) (hfault : ∀ i, E.fault = some i → copied ≤ i) (hstart : us = dir.user dst src)
    (hend : us.toNat + len.toNat = ue.toNat) (hmem : h.mem = mem.move (byteAddr E dst) (byteAddr E src) copied)
    (t0 : U64) (fuel : Nat) (hfuel : 7 * left + 6 ≤ fuel) :
    ∃ h', copyRun E dir us fuel ⟨.beqz, dst + BitVec.ofNat 64 copied, src + BitVec.ofNat 64 copied,
        len - BitVec.ofNat 64 copied, t0⟩ h = .ok ((copyOutcome E len.toNat).1, h') ∧
      Ran t h (mem.move (byteAddr E dst) (byteAddr E src) (copyOutcome E len.toNat).2) h' := by
  have hlt := len.isLt
  induction left generalizing copied h t0 fuel with
  | zero =>
    have ha2 : len - BitVec.ofNat 64 copied = 0 := by
      apply BitVec.eq_of_toNat_eq
      rw [BitVec.toNat_sub, BitVec.toNat_ofNat, show (0 : U64).toNat = 0 from rfl]
      omega
    obtain ⟨n, rfl⟩ : ∃ n, fuel = n + 3 := ⟨fuel - 3, by omega⟩
    rw [copyOutcome_ok fun i hi => by have := hfault i hi; omega]
    refine ⟨h, ?_, rfl, ?_, rfl, rfl, hp.others⟩
    · rw [copyRun_step (by simp), copyStep, ok_bind]
      dsimp only
      rw [if_pos ha2, copyRun_return (.inl rfl)]
      rfl
    · rw [show len.toNat = copied by omega, ← hmem]
      rfl
  | succ left ih =>
    have ha2 : len - BitVec.ofNat 64 copied ≠ 0 := by
      intro hz
      have hz := congrArg BitVec.toNat hz
      rw [BitVec.toNat_sub, BitVec.toNat_ofNat, show (0 : U64).toNat = 0 from rfl] at hz
      omega
    -- the user's byte of this round
    have huser : dir.user (dst + BitVec.ofNat 64 copied) (src + BitVec.ofNat 64 copied) = us + BitVec.ofNat 64 copied := by
      rw [hstart]
      cases dir <;> rfl
    have hva : (us + BitVec.ofNat 64 copied).toNat = us.toNat + copied := by
      have := ue.isLt
      rw [BitVec.toNat_add, BitVec.toNat_ofNat]
      omega
    have hindex : (us + BitVec.ofNat 64 copied - us).toNat = copied := by
      rw [BitVec.toNat_sub, hva]
      have := us.isLt
      omega
    have hfaults : userFaults E us (us + BitVec.ofNat 64 copied) h = decide (E.fault = some copied) := by
      rw [userFaults, hsum, hindex]
      rfl
    by_cases hf : E.fault = some copied
    · rw [copyOutcome_fault hf (by omega)]
      obtain ⟨n, rfl⟩ : ∃ n, fuel = n + 5 := ⟨fuel - 5, by omega⟩
      obtain ⟨h', hrun, hran⟩ := copyRun_fault n t0 hp ha2
        (by rw [huser, hfaults]; exact decide_eq_true hf) (by rw [huser, hva]; omega)
      exact ⟨h', hrun, by rw [← hmem]; exact hran⟩
    · obtain ⟨n, rfl⟩ : ∃ n, fuel = n + 7 := ⟨fuel - 7, by omega⟩
      obtain ⟨t0', hround⟩ := copyRun_round n t0 ha2
        (by rw [huser, hfaults]; exact decide_eq_false hf)
      have hnext : ∀ a : U64, a + BitVec.ofNat 64 copied + 1 = a + BitVec.ofNat 64 (copied + 1) := by
        intro a
        rw [BitVec.add_assoc, BitVec.ofNat_add]
        rfl
      have hless : len - BitVec.ofNat 64 copied - 1 = len - BitVec.ofNat 64 (copied + 1) := by
        rw [BitVec.ofNat_add]
        exact sub_sub _ _ _
      rw [hnext, hnext, hless] at hround
      obtain ⟨h', hrun, hran⟩ := ih
        (h := h.setMem (Function.update h.mem (byteAddr E dst copied) (h.mem (byteAddr E src copied)))) (copied + 1)
        ⟨hp.current, hp.real, hp.probe, hp.others⟩ hsum (by omega) (fun i hi => by
          have := hfault i hi
          have hne : i ≠ copied := fun he => hf (by rw [hi, he])
          omega) (by rw [hmem]; rfl) t0' n (by omega)
      exact ⟨h', hround.trans hrun, hran.setMem⟩

/-! ### The C callers -/

/-- No thread is in a probed copy, and the current thread is one of the table. -/
structure CopyReady (h : Hart) : Prop where
  current : ∀ c, h.kernel.sched.currentThread = some c → tidIsValid (h.kernel.sched.threads c).tid = true
  idle : ∀ u, (h.kernel.sched.usercopyProbes u).active = false

/-- What a copy gives back to its caller, with the memory it leaves. -/
structure CopyDone (h : Hart) (mem : Mem) (h' : Hart) : Prop where
  sum : h'.sum = h.sum
  machine : h'.kernel.machine = { h.kernel.machine with mem := mem }
  current : h'.kernel.sched.currentThread = h.kernel.sched.currentThread
  threads : h'.kernel.sched.threads = h.kernel.sched.threads
  idle : ∀ u, (h'.kernel.sched.usercopyProbes u).active = false

theorem CopyDone.refl (h : Hart) (hidle : ∀ u, (h.kernel.sched.usercopyProbes u).active = false) :
    CopyDone h h.mem h :=
  ⟨rfl, rfl, rfl, rfl, hidle⟩

theorem threadUsercopyProbeBegin_refused (probe : UsercopyProbe)
    (hnone : ∀ c, k.sched.currentThread = some c → (k.sched.threads c).tid = threadNullTid) :
    threadUsercopyProbeBegin probe k = (-1, k) := by
  unfold threadUsercopyProbeBegin
  cases hc : k.sched.currentThread with
  | none =>
    dsimp only [Kernel.irqSave]
    rw [hc]
    rfl
  | some c =>
    dsimp only [Kernel.irqSave]
    rw [hc]
    dsimp only
    rw [if_pos (.inl (hnone c hc))]
    rfl

theorem threadUsercopyProbeBegin_armed (E : CopyEnv) (dir : CopyDir) {c : Nat} (hc : k.sched.currentThread = some c)
    (hreal : tidIsReal (k.sched.threads c).tid = true) (hidle : ∀ u, (k.sched.usercopyProbes u).active = false)
    (hrange : us.toNat < ue.toNat) :
    ∃ k', threadUsercopyProbeBegin (copyProbe E dir us ue) k = (0, k') ∧ k'.machine = k.machine ∧
      k'.sched.currentThread = some c ∧ k'.sched.threads = k.sched.threads ∧
      Probed E dir us ue (k.sched.threads c).tid k' := by
  have hnull : (k.sched.threads c).tid ≠ threadNullTid := by
    intro hz
    rw [hz] at hreal
    exact absurd hreal (by decide)
  obtain ⟨h1, h2⟩ := E.text.bounds
  unfold threadUsercopyProbeBegin
  dsimp only [Kernel.irqSave]
  rw [hc]
  dsimp only
  rw [if_neg, if_neg (by rw [hidle]; exact Bool.false_ne_true)]
  · refine ⟨_, rfl, rfl, rfl, rfl, ⟨c, rfl, rfl⟩, hreal, Function.update_self _ _ _, fun u hu => ?_⟩
    exact (congrArg UsercopyProbe.active (Function.update_of_ne hu _ _)).trans (hidle u)
  · dsimp only [copyProbe]
    rintro (h | h | h | h | h)
    · exact hnull h
    · exact absurd (BitVec.le_def.mp h) (by omega)
    · exact h2 h
    · exact absurd (BitVec.le_def.mp h) (by omega)
    · cases dir <;> exact absurd h (by decide)

theorem threadUsercopyProbeEnd_spec {c : Nat} (hc : k.sched.currentThread = some c)
    (hreal : tidIsReal (k.sched.threads c).tid = true)
    (hothers : ∀ u, u ≠ (k.sched.threads c).tid → (k.sched.usercopyProbes u).active = false) :
    (threadUsercopyProbeEnd k).machine = k.machine ∧
      (threadUsercopyProbeEnd k).sched.currentThread = k.sched.currentThread ∧
      (threadUsercopyProbeEnd k).sched.threads = k.sched.threads ∧
      ∀ u, ((threadUsercopyProbeEnd k).sched.usercopyProbes u).active = false := by
  have hnull : (k.sched.threads c).tid ≠ threadNullTid := by
    intro hz
    rw [hz] at hreal
    exact absurd hreal (by decide)
  have hvalid : tidIsValid (k.sched.threads c).tid = true := by
    exact (Bool.and_eq_true_iff.mp hreal).2
  have heq : threadUsercopyProbeEnd k = { k with sched := k.sched.usercopyProbeClear (k.sched.threads c).tid } := by
    unfold threadUsercopyProbeEnd
    dsimp only [Kernel.irqSave]
    rw [hc]
    dsimp only
    rw [if_neg hnull]
    rfl
  rw [heq, Sched.usercopyProbeClear, if_pos hvalid]
  refine ⟨rfl, rfl, rfl, fun u => ?_⟩
  by_cases hu : u = (k.sched.threads c).tid
  · rw [hu]
    show (Function.update k.sched.usercopyProbes (k.sched.threads c).tid noProbe _).active = false
    rw [Function.update_self]
    rfl
  · exact (congrArg UsercopyProbe.active (Function.update_of_ne hu _ _)).trans (hothers u hu)

/-- A thread other than the null thread runs. -/
def RealThread (k : Kernel) : Prop := ∃ c, k.sched.currentThread = some c ∧ tidIsReal (k.sched.threads c).tid = true

theorem probedCopyBytes_eq : probedCopyBytes E dir dst src len us ue h =
    let x := threadUsercopyProbeBegin (copyProbe E dir us ue)
      { h.kernel with machine := { h.kernel.machine with sie := false } }
    if x.1 < 0 then .ok (usercopyErrInvalid, { kernel := x.2.irqRestore h.kernel.machine.sie, sum := h.sum })
    else copyRun E dir us (7 * len.toNat + 6) ⟨.beqz, dst, src, len, 0⟩ { kernel := x.2, sum := true } >>= fun y =>
      .ok (y.1, { kernel := (threadUsercopyProbeEnd y.2.kernel).irqRestore h.kernel.machine.sie, sum := h.sum }) := rfl

theorem probedCopyBytes_spec (hr : CopyReady h) (hstart : us = dir.user dst src) (hlen : 0 < len.toNat)
    (hend : us.toNat + len.toNat = ue.toNat) :
    ∃ result h', probedCopyBytes E dir dst src len us ue h = .ok (result, h') ∧
      (RealThread h.kernel ∧ result = (copyOutcome E len.toNat).1 ∧
          CopyDone h (h.mem.move (byteAddr E dst) (byteAddr E src) (copyOutcome E len.toNat).2) h' ∨
        ¬RealThread h.kernel ∧ result = usercopyErrInvalid ∧ CopyDone h h.mem h') := by
  let k₁ : Kernel := { h.kernel with machine := { h.kernel.machine with sie := false } }
  by_cases hreal : RealThread h.kernel
  · obtain ⟨c, hc, ht⟩ := id hreal
    obtain ⟨k₂, hbegin, hm₂, hc₂, ht₂, hprobed⟩ :=
      threadUsercopyProbeBegin_armed E dir (k := k₁) hc ht hr.idle (show us.toNat < ue.toNat by omega)
    obtain ⟨h₃, hrun, hran⟩ := copyRun_spec (E := E) (h := { kernel := k₂, sum := true })
      len.toNat h.mem 0 hprobed rfl (Nat.zero_add _) (fun _ _ => Nat.zero_le _) hstart hend
      (by show k₂.machine.mem = h.kernel.machine.mem; rw [hm₂]) 0 (7 * len.toNat + 6) (le_refl _)
    rw [BitVec.add_zero, BitVec.add_zero, BitVec.sub_zero] at hrun
    have hthreads₃ : h₃.kernel.sched.threads = h.kernel.sched.threads := hran.threads.trans ht₂
    have hc₃ : h₃.kernel.sched.currentThread = some c := hran.current.trans hc₂
    obtain ⟨hm₄, hc₄, ht₄, hidle₄⟩ := threadUsercopyProbeEnd_spec (k := h₃.kernel) hc₃
      (by rw [hthreads₃]; exact ht) (by rw [hthreads₃]; exact hran.others)
    let h' : Hart := { kernel := (threadUsercopyProbeEnd h₃.kernel).irqRestore h.kernel.machine.sie, sum := h.sum }
    refine ⟨_, h', ?_, .inl ⟨hreal, rfl, rfl, ?_, hc₄.trans (hc₃.trans hc.symm), ht₄.trans hthreads₃, hidle₄⟩⟩
    · rw [probedCopyBytes_eq, hbegin]
      dsimp only
      rw [if_neg (by decide), hrun, ok_bind]
    · have hm₃ : h₃.kernel.machine = { h.kernel.machine with
          sie := false
          mem := h.mem.move (byteAddr E dst) (byteAddr E src) (copyOutcome E len.toNat).2 } := by
        rw [hran.machine, show ({ kernel := k₂, sum := true } : Hart).kernel.machine = k₁.machine from hm₂]
      show { (threadUsercopyProbeEnd h₃.kernel).machine with sie := h.kernel.machine.sie } = _
      rw [hm₄, hm₃]
  · have hrefused := threadUsercopyProbeBegin_refused (k := k₁) (copyProbe E dir us ue) fun c hc => by
      by_contra hnull
      have hvalid := hr.current c hc
      exact hreal ⟨c, hc, Bool.and_eq_true_iff.mpr ⟨decide_eq_true (Nat.pos_of_ne_zero hnull), hvalid⟩⟩
    refine ⟨_, h, ?_, .inr ⟨hreal, rfl, .refl h hr.idle⟩⟩
    rw [probedCopyBytes_eq, hrefused]
    dsimp only
    rw [if_pos (by decide)]
    rfl

/-! ### The whole call -/

/-- The arguments pass the checks before the copy. -/
structure Validated (dir : CopyDir) (dst src len : U64) (h : Hart) : Prop where
  len_ne : len ≠ 0
  dst_ne : dst ≠ 0
  src_ne : src ≠ 0
  range : usercopyValidateRangeInSpace h.kernel.machine.kernelSpace (dir.user dst src) len (dir = .toUser)
    h.kernel.machine = .ok (usercopyOk, h.kernel.machine)

theorem usercopyRangeEnd_some {start : U64} (hlen : len ≠ 0) (hend : usercopyRangeEnd start len = some ue) :
    start.toNat + len.toNat = ue.toNat := by
  have hpos : len.toNat ≠ 0 := fun hz => hlen (BitVec.eq_of_toNat_eq hz)
  have h1 := start.isLt
  have h2 := len.isLt
  unfold usercopyRangeEnd at hend
  rw [if_neg hlen] at hend
  dsimp only at hend
  by_cases hwrap : start + len < start
  · rw [if_pos hwrap] at hend
    cases hend
  · rw [if_neg hwrap] at hend
    obtain rfl := Option.some.inj hend
    rw [BitVec.lt_def, BitVec.toNat_add] at hwrap
    rw [BitVec.toNat_add]
    omega

/-- Either the call is refused and leaves everything as it was, or it is past its checks and the copy decides. -/
theorem copyUser_spec (E : CopyEnv) (dir : CopyDir) (dst src len : U64) (hr : CopyReady h) :
    ∃ result h', copyUser E dir dst src len h = .ok (result, h') ∧
      (Validated dir dst src len h ∧ RealThread h.kernel ∧ result = (copyOutcome E len.toNat).1 ∧
          CopyDone h (h.mem.move (byteAddr E dst) (byteAddr E src) (copyOutcome E len.toNat).2) h' ∨
        ¬(Validated dir dst src len h ∧ RealThread h.kernel) ∧ CopyDone h h.mem h') := by
  have hsame : CopyDone h h.mem h := .refl h hr.idle
  unfold copyUser
  by_cases hlen : len = 0
  · rw [if_pos hlen]
    exact ⟨_, h, rfl, .inr ⟨fun hv => hv.1.len_ne hlen, hsame⟩⟩
  rw [if_neg hlen]
  by_cases hptr : dst = 0 ∨ src = 0
  · rw [if_pos hptr]
    exact ⟨_, h, rfl, .inr ⟨fun hv => hptr.elim hv.1.dst_ne hv.1.src_ne, hsame⟩⟩
  rw [if_neg hptr]
  dsimp only
  obtain ⟨result, hvalid, hcase, -⟩ := usercopyValidateRangeInSpace_iff h.kernel.machine.kernelSpace (dir.user dst src)
    len (dir = .toUser) h.kernel.machine
  cases hend : usercopyRangeEnd (dir.user dst src) len with
  | none =>
    rw [show usercopyRangeEnd (if dir = .toUser then dst else src) len = none from hend]
    refine ⟨_, h, rfl, .inr ⟨fun hv => ?_, hsame⟩⟩
    -- the validation refuses a range that wraps, too
    have hrange := hv.1.range
    unfold usercopyValidateRangeInSpace at hrange
    rw [hend] at hrange
    exact absurd (show usercopyErrInvalid = usercopyOk from congrArg Prod.fst (Except.ok.inj hrange)) (by decide)
  | some ue =>
    rw [show usercopyRangeEnd (if dir = .toUser then dst else src) len = some ue from hend]
    dsimp only
    rw [show usercopyValidateRangeInSpace h.kernel.machine.kernelSpace (if dir = .toUser then dst else src) len
      (dir = .toUser) h.kernel.machine = .ok (result, h.kernel.machine) from hvalid, ok_bind]
    dsimp only
    by_cases hok : result = usercopyOk
    · have hv : Validated dir dst src len h :=
        ⟨hlen, fun hz => hptr (.inl hz), fun hz => hptr (.inr hz), by rw [hvalid, hok]⟩
      rw [if_neg (not_not.mpr hok)]
      obtain ⟨result, h', hcopy, hres⟩ := probedCopyBytes_spec (E := E) hr
        (show dir.user dst src = dir.user dst src from rfl)
        (Nat.pos_of_ne_zero fun hz => hlen (BitVec.eq_of_toNat_eq hz)) (usercopyRangeEnd_some hlen hend)
      refine ⟨result, h', hcopy, ?_⟩
      rcases hres with ⟨hreal, hresult, hdone⟩ | ⟨hnot, -, hdone⟩
      · exact .inl ⟨hv, hreal, hresult, hdone⟩
      · exact .inr ⟨fun hv => hnot hv.2, hdone⟩
    · rw [if_pos hok]
      refine ⟨result, h, rfl, .inr ⟨fun hv => hok ?_, hsame⟩⟩
      exact congrArg Prod.fst (Except.ok.inj (hvalid.symm.trans hv.1.range))

/-- A frame and a cause that the current thread's probe does not expect. -/
def Unexpected (frame cause : U64) (k : Kernel) : Prop :=
  ∀ c, k.sched.currentThread = some c →
    let probe := k.sched.usercopyProbes (k.sched.threads c).tid
    probe.active = false ∨ cause ≠ probe.faultCause ∨
      ¬(probe.pcStart.toNat ≤ (k.sched.frames frame).mepc.toNat ∧
        (k.sched.frames frame).mepc.toNat < probe.pcEnd.toNat) ∨
      ¬(probe.userStart.toNat ≤ (k.sched.frames frame).mtval.toNat ∧
        (k.sched.frames frame).mtval.toNat < probe.userEnd.toNat)

theorem threadUsercopyProbeRecover_unexpected {frame cause : U64} (h : Unexpected frame cause k) :
    threadUsercopyProbeRecover frame cause k = (false, k) := by
  unfold threadUsercopyProbeRecover
  cases hc : k.sched.currentThread with
  | none => rfl
  | some c =>
    have h := h c hc
    dsimp only at h ⊢
    by_cases hguard : frame = 0 ∨ (k.sched.threads c).tid = threadNullTid ∨ !trapCauseIsUsercopyRecoverable cause
    · rw [if_pos hguard]
    · rw [if_neg hguard, if_pos]
      simp only [BitVec.lt_def, ge_iff_le, BitVec.le_def, Bool.not_eq_true']
      rcases h with h | h | h | h
      · exact .inl h
      · exact .inr (.inl h)
      · omega
      · omega

/-- The first `n` bytes have been copied: one after the other, and so each of them if the two buffers are apart. -/
structure BytesCopied (E : CopyEnv) (dst src : U64) (n : Nat) (h h' : Hart) : Prop where
  moved : h'.mem = h.mem.move (byteAddr E dst) (byteAddr E src) n
  copied : (∀ i j, i < j → j < n → byteAddr E dst i ≠ byteAddr E dst j) →
    (∀ i j, i < n → j < n → byteAddr E src j ≠ byteAddr E dst i) →
    Mem.Copied (byteAddr E dst) (byteAddr E src) n h.mem h'.mem

theorem CopyDone.bytesCopied (hd : CopyDone h (h.mem.move (byteAddr E dst) (byteAddr E src) n) h') :
    BytesCopied E dst src n h h' := by
  have hmem : h'.mem = h.mem.move (byteAddr E dst) (byteAddr E src) n := congrArg Machine.mem hd.machine
  refine ⟨hmem, fun hdst hsrc => ?_⟩
  rw [hmem]
  exact Mem.move_copied h.mem hdst hsrc

theorem CopyDone.ready {mem : Mem} (hd : CopyDone h mem h') (hr : CopyReady h) : CopyReady h' := by
  refine ⟨fun c hc => ?_, hd.idle⟩
  rw [hd.threads]
  exact hr.current c (hd.current.symm.trans hc)

/-- A probed copy in either direction: it returns, the bytes before the one that faults are moved and no others, the
status tells whether there was a fault, and the probe, SUM and SIE are as they were. A fault that is not the copy's
own is left alone. -/
theorem probedCopy_recovers (E : CopyEnv) (dir : CopyDir) (dst src len : U64) (h : Hart) (hr : CopyReady h) :
    (∃ result h', copyUser E dir dst src len h = .ok (result, h') ∧ h'.sum = h.sum ∧
      h'.kernel.machine.sie = h.kernel.machine.sie ∧ CopyReady h' ∧
      (Validated dir dst src len h → RealThread h.kernel →
        ((∀ i, E.fault = some i → len.toNat ≤ i) → result = usercopyOk ∧ BytesCopied E dst src len.toNat h h') ∧
        ∀ i, E.fault = some i → i < len.toNat → result = usercopyErrFault ∧ BytesCopied E dst src i h h')) ∧
    ∀ frame cause k, Unexpected frame cause k → threadUsercopyProbeRecover frame cause k = (false, k) := by
  refine ⟨?_, fun frame cause k => threadUsercopyProbeRecover_unexpected⟩
  obtain ⟨result, h', hcopy, hres⟩ := copyUser_spec E dir dst src len hr
  rcases hres with ⟨-, -, hresult, hdone⟩ | ⟨hnot, hdone⟩
  · refine ⟨result, h', hcopy, hdone.sum, by rw [hdone.machine], hdone.ready hr,
      fun _ _ => ⟨fun hnone => ?_, fun i hi hlt => ?_⟩⟩
    · rw [copyOutcome_ok hnone] at hresult hdone
      exact ⟨hresult, hdone.bytesCopied⟩
    · rw [copyOutcome_fault hi hlt] at hresult hdone
      exact ⟨hresult, hdone.bytesCopied⟩
  · exact ⟨result, h', hcopy, hdone.sum, by rw [hdone.machine], hdone.ready hr,
      fun hv hreal => absurd ⟨hv, hreal⟩ hnot⟩

/-- A routine of four-byte instructions under the identity map, where the third user byte faults. -/
def sampleCopyEnv : CopyEnv where
  text :=
    { addr := fun i => 0x80000000 + BitVec.ofNat 64 (4 * copyText.idxOf i)
      ordered := by decide }
  translate := BitVec.toNat
  frame := 0x80018000
  frame_ne := by decide
  mtime := 0
  fault := some 2

/-- Thread 1 runs with one user page at 0x1000. -/
def sampleCopyHart : Hart where
  kernel := { sampleKernel with
    machine := { sampleMachine with
      kernelSpace := ⟨0x80010000⟩
      mem := ((sampleMachine.mem.store64 0x80010000 (paToPte 0x80011000 vmPteV)).store64 0x80011000
        (paToPte 0x80012000 vmPteV)).store64 0x80012008 (paToPte 0x1000 (vmPteV ||| vmPteR ||| vmPteU)) }
    sched := { sampleKernel.sched with
      threads := fun t => { unusedThread t with tid := t }
      currentThread := some 1 } }
  sum := false

theorem probedCopy_recovers_sample : ∃ h', copyUser sampleCopyEnv .fromUser 0x80020000 0x1000 4 sampleCopyHart =
    .ok (usercopyErrFault, h') ∧ BytesCopied sampleCopyEnv 0x80020000 0x1000 2 sampleCopyHart h' ∧ h'.sum = false := by
  have hr : CopyReady sampleCopyHart := by
    refine ⟨fun c hc => ?_, fun u => rfl⟩
    obtain rfl := Option.some.inj hc
    decide
  have hrange : (usercopyValidateRangeInSpace sampleCopyHart.kernel.machine.kernelSpace 0x1000 4 false
      sampleCopyHart.kernel.machine).map Prod.fst = .ok usercopyOk := by decide +kernel
  obtain ⟨result, hvalid, -, -⟩ := usercopyValidateRangeInSpace_iff sampleCopyHart.kernel.machine.kernelSpace 0x1000 4 false
    sampleCopyHart.kernel.machine
  rw [hvalid] at hrange
  obtain rfl : result = usercopyOk := Except.ok.inj hrange
  obtain ⟨⟨result, h', hcopy, hsum, -, -, hres⟩, -⟩ :=
    probedCopy_recovers sampleCopyEnv .fromUser 0x80020000 0x1000 4 sampleCopyHart hr
  obtain ⟨hresult, hcopied⟩ := (hres ⟨by decide, by decide, by decide, hvalid⟩ ⟨1, rfl, by decide⟩).2 2 rfl (by decide)
  rw [hresult] at hcopy
  exact ⟨h', hcopy, hcopied, hsum⟩

end QemuRtos
