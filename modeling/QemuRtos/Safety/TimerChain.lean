import QemuRtos.Drivers.Timer
import QemuRtos.Lib.Transition

/-!
# The timer chain

Outside the handlers either the supervisor interrupt is pending and the compare register is disarmed, or the register
holds the next deadline. Deadlines lie on a grid that starts when the timer does, and no tick is counted before its time.
-/

namespace QemuRtos

open Lib

/-! ### The catch-up loop -/

/-- The loop on unbounded numbers ends at the first deadline of the grid after `now` and after the old one. -/
theorem timerNextCompare_spec (now next : Nat) : now < timerNextCompare now next ∧ next < timerNextCompare now next ∧
    timerNextCompare now next ≤ max next now + timerIntervalCycles ∧
    timerNextCompare now next % timerIntervalCycles = next % timerIntervalCycles := by
  fun_induction timerNextCompare now next with
  | case1 next h ih =>
    obtain ⟨h₁, h₂, h₃, h₄⟩ := ih
    refine ⟨h₁, by omega, by omega, ?_⟩
    rw [h₄, Nat.add_mod_right]
  | case2 next h => exact ⟨by omega, by simp only [timerIntervalCycles]; omega, by omega, Nat.add_mod_right ..⟩

/-- The loop on machine words computes the same, and leaves in time. -/
theorem timerCatchUp_eq (now : U64) (fuel : Nat) (next : U64) (hnow : now.toNat + timerIntervalCycles < 2 ^ 64)
    (hnext : next.toNat + timerIntervalCycles < 2 ^ 64) (hfuel : now.toNat - next.toNat < fuel) :
    ∃ next' : U64, timerCatchUp now fuel next = some next' ∧ next'.toNat = timerNextCompare now.toNat next.toNat := by
  induction fuel generalizing next with
  | zero => omega
  | succ fuel ih =>
    have hadd : (next + timerInterval).toNat = next.toNat + timerIntervalCycles := by
      rw [BitVec.toNat_add, show timerInterval.toNat = timerIntervalCycles from rfl, Nat.mod_eq_of_lt hnext]
    have hle_iff : next + timerInterval ≤ now ↔ next.toNat + timerIntervalCycles ≤ now.toNat := by
      rw [BitVec.le_def, hadd]
    rw [timerCatchUp, timerNextCompare]
    by_cases hle : next.toNat + timerIntervalCycles ≤ now.toNat
    · rw [if_pos (hle_iff.mpr hle), if_pos hle, ← hadd]
      exact ih _ (by omega) (by rw [hadd]; simp only [timerIntervalCycles] at *; omega)
    · rw [if_neg (mt hle_iff.mp hle), if_neg hle]
      exact ⟨_, rfl, hadd⟩

/-! ### The two traps of the shim -/

theorem machineTrapHandle_timer {frame : TrapFrame} (h : frame.mcause = mcauseInterrupt ||| mcauseMachineTimerInterrupt)
    (hw : TimerRegs) : machineTrapHandle frame hw = .ok (frame, { hw with mtimecmp := timerMax, stip := true }) := by
  have hinterrupt : frame.mcause &&& mcauseInterrupt ≠ 0 := by
    rw [h]
    decide
  have hcause : frame.mcause &&& mcauseCodeMask = mcauseMachineTimerInterrupt := by
    rw [h]
    decide
  rw [machineTrapHandle, if_neg fun hc => hinterrupt hc.1, if_pos ⟨hinterrupt, hcause⟩]

theorem machineTrapHandle_setTimer {frame : TrapFrame} (h : frame.mcause = mcauseEcallSMode)
    (ha7 : frame.a7 = machineEcallSetTimer) (hw : TimerRegs) : machineTrapHandle frame hw =
      .ok ({ frame with a0 := 0, mepc := frame.mepc + 4 }, { hw with stip := false, mtimecmp := frame.a0 }) := by
  have hinterrupt : frame.mcause &&& mcauseInterrupt = 0 := by
    rw [h]
    decide
  have hcause : frame.mcause &&& mcauseCodeMask = mcauseEcallSMode := by
    rw [h]
    decide
  rw [machineTrapHandle, if_pos ⟨hinterrupt, hcause, ha7⟩]

theorem timerSetDeadline_eq (value : U64) (regs : TrapFrame) (hw : TimerRegs) :
    timerSetDeadline value regs hw = .ok { hw with stip := false, mtimecmp := value } := by
  rw [timerSetDeadline, machineCallSetTimer, machineTrapHandle_setTimer rfl rfl]
  rfl

/-! ### The invariant -/

namespace TimerSystem

/-- The supervisor interrupt is pending, the compare register disarmed, and the deadline has passed at time `now`. -/
structure Due (s : TimerSystem) (now : U64) : Prop where
  stip : s.hw.stip = true
  disarmed : s.hw.mtimecmp = timerMax
  passed : s.driver.nextCompare.toNat ≤ now.toNat

def Armed (s : TimerSystem) : Prop := s.hw.stip = false ∧ s.hw.mtimecmp = s.driver.nextCompare

/-- The timer's state at each point of the handler. -/
def Position (s : TimerSystem) : Prop :=
  match s.pos with
  | .kernel | .ticking => s.Due s.hw.mtime ∨ s.Armed
  | .handler => s.Due s.hw.mtime
  | .counting now => s.Due now ∧ now.toNat ≤ s.hw.mtime.toNat
  | .rearming => s.hw.mtimecmp = timerMax

/-- The invariant of a timer that was started when `mtime` read `epoch`. -/
structure Ok (epoch : U64) (s : TimerSystem) : Prop where
  time : s.hw.mtime.toNat + timerIntervalCycles < 2 ^ 64
  position : s.Position
  grid : s.driver.nextCompare.toNat % timerIntervalCycles = epoch.toNat % timerIntervalCycles
  ahead : epoch.toNat + (s.driver.ticks.toNat + 1) * timerIntervalCycles ≤ s.driver.nextCompare.toNat
  ticks : epoch.toNat + s.driver.ticks.toNat * timerIntervalCycles ≤ s.hw.mtime.toNat

variable {s s' s₀ : TimerSystem} {epoch : U64} {e : TimerEvent} {l : List TimerEvent} {regs : TrapFrame}

theorem Ok.not_disarmed (h : s.Ok epoch) (hen : s.hw.mtimecmp ≤ s.hw.mtime) : s.hw.mtimecmp ≠ timerMax := by
  intro he
  rw [he, BitVec.le_def, show timerMax.toNat = 2 ^ 64 - 1 from rfl] at hen
  have := h.time
  simp only [timerIntervalCycles] at this
  omega

theorem Ok.catchUp (h : s.Ok epoch) {now : U64} (hpos : s.pos = .counting now) :
    ∃ next : U64, timerCatchUp now (2 ^ 64) s.driver.nextCompare = some next ∧ now.toNat < next.toNat ∧
      s.driver.nextCompare.toNat + timerIntervalCycles ≤ next.toNat ∧
      next.toNat ≤ max s.driver.nextCompare.toNat now.toNat + timerIntervalCycles ∧
      next.toNat % timerIntervalCycles = epoch.toNat % timerIntervalCycles := by
  have hp := h.position
  rw [Position, hpos] at hp
  obtain ⟨hdue, hnow⟩ := hp
  have htime := h.time
  have hpassed := hdue.passed
  obtain ⟨next, hrun, heq⟩ := timerCatchUp_eq now (2 ^ 64) s.driver.nextCompare (by omega) (by omega) (by omega)
  obtain ⟨h₁, h₂, h₃, h₄⟩ := timerNextCompare_spec now.toNat s.driver.nextCompare.toNat
  rw [← heq] at h₁ h₂ h₃ h₄
  refine ⟨next, hrun, h₁, ?_, h₃, h₄.trans h.grid⟩
  -- both are on the grid
  simp only [timerIntervalCycles] at h₂ h₄ ⊢
  omega

theorem Ok.handlerStep (h : s.Ok epoch) (regs : TrapFrame) : ∃ s', s.handlerStep regs = .ok s' ∧ s'.Ok epoch := by
  have hp := h.position
  rw [Position] at hp
  cases hpos : s.pos with
  | kernel => exact ⟨s, by rw [TimerSystem.handlerStep, hpos], h⟩
  | handler =>
    rw [hpos] at hp
    refine ⟨{ s with pos := .counting s.hw.mtime }, by rw [TimerSystem.handlerStep, hpos], h.time, ?_, h.grid, h.ahead, h.ticks⟩
    exact ⟨⟨hp.stip, hp.disarmed, hp.passed⟩, Nat.le_refl _⟩
  | counting now =>
    obtain ⟨next, hrun, hgt, hstep, hle, hgrid⟩ := h.catchUp hpos
    rw [hpos] at hp
    obtain ⟨hdue, hnow⟩ := hp
    have hahead := h.ahead
    have hpassed := hdue.passed
    have htime := h.time
    have hticks : (s.driver.ticks + 1).toNat = s.driver.ticks.toNat + 1 := by
      rw [BitVec.toNat_add, show (1 : U64).toNat = 1 from rfl]
      simp only [timerIntervalCycles] at hahead
      omega
    refine ⟨{ s with driver := { ticks := s.driver.ticks + 1, nextCompare := next }, pos := .rearming }, ?_, htime, ?_, hgrid,
      ?_, ?_⟩
    · simp only [TimerSystem.handlerStep, hpos, hrun]
    · exact hdue.disarmed
    · show epoch.toNat + ((s.driver.ticks + 1).toNat + 1) * timerIntervalCycles ≤ next.toNat
      rw [hticks, Nat.succ_mul, ← Nat.add_assoc]
      exact (Nat.add_le_add_right hahead _).trans hstep
    · show epoch.toNat + (s.driver.ticks + 1).toNat * timerIntervalCycles ≤ s.hw.mtime.toNat
      rw [hticks]
      omega
  | rearming =>
    refine ⟨{ s with hw := { s.hw with stip := false, mtimecmp := s.driver.nextCompare }, pos := .ticking }, ?_, h.time, ?_,
      h.grid, h.ahead, h.ticks⟩
    · rw [TimerSystem.handlerStep, hpos]
      dsimp only
      rw [timerSetDeadline_eq]
      rfl
    · exact .inr ⟨rfl, rfl⟩
  | ticking =>
    rw [hpos] at hp
    refine ⟨{ s with pos := .kernel }, by rw [TimerSystem.handlerStep, hpos], h.time, ?_, h.grid, h.ahead, h.ticks⟩
    exact hp.imp (fun hd => ⟨hd.stip, hd.disarmed, hd.passed⟩) fun ha => ⟨ha.1, ha.2⟩

theorem Ok.step (h : s.Ok epoch) (hen : Enabled e s) : ∃ s', exec e s = .ok s' ∧ s'.Ok epoch := by
  have hp := h.position
  rw [Position] at hp
  cases e with
  | time mtime =>
    obtain ⟨hle, hlt⟩ := hen
    rw [BitVec.le_def] at hle
    have hticks := h.ticks
    refine ⟨_, rfl, ?_, ?_, h.grid, h.ahead, ?_⟩
    · show mtime.toNat + timerIntervalCycles < 2 ^ 64
      simp only [timerIntervalCycles] at hlt ⊢
      omega
    · rw [Position]
      dsimp only
      cases hpos : s.pos with
      | kernel =>
        rw [hpos] at hp
        exact hp.imp (fun hd => ⟨hd.stip, hd.disarmed, hd.passed.trans hle⟩) fun ha => ⟨ha.1, ha.2⟩
      | handler =>
        rw [hpos] at hp
        exact ⟨hp.stip, hp.disarmed, hp.passed.trans hle⟩
      | counting now =>
        rw [hpos] at hp
        exact ⟨⟨hp.1.stip, hp.1.disarmed, hp.1.passed⟩, hp.2.trans hle⟩
      | rearming =>
        rw [hpos] at hp
        exact hp
      | ticking =>
        rw [hpos] at hp
        exact hp.imp (fun hd => ⟨hd.stip, hd.disarmed, hd.passed.trans hle⟩) fun ha => ⟨ha.1, ha.2⟩
    · exact hticks.trans hle
  | machineInterrupt regs =>
    have hnot := h.not_disarmed hen
    refine ⟨{ s with hw := { s.hw with mtimecmp := timerMax, stip := true } }, ?_, h.time, ?_, h.grid, h.ahead, h.ticks⟩
    · rw [exec, machineTrapHandle_timer rfl]
      rfl
    have hfire : s.Due s.hw.mtime ∨ s.Armed → (TimerSystem.mk { s.hw with mtimecmp := timerMax, stip := true } s.driver s.pos).Due
        s.hw.mtime := by
      rintro (hd | ha)
      · exact absurd hd.disarmed hnot
      · rw [Enabled, ha.2, BitVec.le_def] at hen
        exact ⟨rfl, rfl, hen⟩
    rw [Position]
    dsimp only
    cases hpos : s.pos with
    | kernel =>
      rw [hpos] at hp hfire
      exact .inl (hfire hp)
    | handler =>
      rw [hpos] at hp
      exact absurd hp.disarmed hnot
    | counting now =>
      rw [hpos] at hp
      exact absurd hp.1.disarmed hnot
    | rearming => rfl
    | ticking =>
      rw [hpos] at hp hfire
      exact .inl (hfire hp)
  | supervisorInterrupt =>
    obtain ⟨hpos, hstip⟩ := hen
    rw [hpos] at hp
    refine ⟨{ s with pos := .handler }, rfl, h.time, ?_, h.grid, h.ahead, h.ticks⟩
    obtain hd | ha := hp
    · exact ⟨hd.stip, hd.disarmed, hd.passed⟩
    · exact absurd (ha.1.symm.trans hstip) (by decide)
  | handlerStep regs => exact h.handlerStep regs

theorem timerInit_ok (htime : s.hw.mtime.toNat < 2 ^ 64 - timerIntervalCycles) (hinit : timerInit regs s = .ok s₀) :
    s₀.Ok s.hw.mtime := by
  rw [timerInit, timerSetDeadline_eq] at hinit
  obtain rfl := Except.ok.inj hinit
  have hadd : (s.hw.mtime + timerInterval).toNat = s.hw.mtime.toNat + timerIntervalCycles := by
    rw [BitVec.toNat_add, show timerInterval.toNat = timerIntervalCycles from rfl]
    simp only [timerIntervalCycles] at htime ⊢
    omega
  refine ⟨?_, .inr ⟨rfl, rfl⟩, ?_, ?_, ?_⟩
  · show s.hw.mtime.toNat + timerIntervalCycles < 2 ^ 64
    simp only [timerIntervalCycles] at htime ⊢
    omega
  · show (s.hw.mtime + timerInterval).toNat % _ = _
    rw [hadd, Nat.add_mod_right]
  · show s.hw.mtime.toNat + ((0 : U64).toNat + 1) * timerIntervalCycles ≤ (s.hw.mtime + timerInterval).toNat
    rw [hadd, show (0 : U64).toNat = 0 from rfl, Nat.zero_add, Nat.one_mul]
  · show s.hw.mtime.toNat + (0 : U64).toNat * timerIntervalCycles ≤ s.hw.mtime.toNat
    rw [show (0 : U64).toNat = 0 from rfl, Nat.zero_mul, Nat.add_zero]

theorem run_ok (h : s₀.Ok epoch) (hrun : Run exec Enabled s₀ l s) : s.Ok epoch := by
  refine hrun.invariant (fun e s s' h hen hs => ?_) h
  obtain ⟨s₁, hs₁, hok⟩ := h.step hen
  exact Except.ok.inj (hs₁.symm.trans hs) ▸ hok

/-- The timer chain: in every state of every run after `timer_init`, the interrupt is pending or the deadline is set;
the catch-up loop ends on the grid, after `mtime` and at most one interval too far; and ticks do not run ahead. -/
theorem timer_chain (htime : s.hw.mtime.toNat < 2 ^ 64 - timerIntervalCycles) (hinit : timerInit regs s = .ok s₀)
    (hrun : Run exec Enabled s₀ l s') :
    (s'.pos = .kernel → s'.hw.stip = true ∧ s'.hw.mtimecmp = timerMax ∨
      s'.hw.stip = false ∧ s'.hw.mtimecmp = s'.driver.nextCompare) ∧
    (∀ now, s'.pos = .counting now → ∃ next : U64, timerCatchUp now (2 ^ 64) s'.driver.nextCompare = some next ∧
      now.toNat < next.toNat ∧ next.toNat ≤ max s'.driver.nextCompare.toNat now.toNat + timerIntervalCycles ∧
      next.toNat % timerIntervalCycles = s₀.driver.nextCompare.toNat % timerIntervalCycles) ∧
    s'.driver.ticks.toNat * timerIntervalCycles ≤ s'.hw.mtime.toNat - s.hw.mtime.toNat ∧
    ∀ e, Enabled e s' → ∃ s'', exec e s' = .ok s'' := by
  have h₀ := timerInit_ok htime hinit
  have h := run_ok h₀ hrun
  refine ⟨fun hpos => ?_, fun now hpos => ?_, ?_, fun e hen => ?_⟩
  · have hp := h.position
    rw [Position, hpos] at hp
    exact hp.imp (fun hd => ⟨hd.stip, hd.disarmed⟩) id
  · obtain ⟨next, hnext, hgt, -, hle, hgrid⟩ := h.catchUp hpos
    exact ⟨next, hnext, hgt, hle, hgrid.trans h₀.grid.symm⟩
  · have := h.ticks
    omega
  · obtain ⟨s'', hs, -⟩ := h.step hen
    exact ⟨s'', hs⟩

/-- The first deadline passes late: the handler skips the deadline that has passed meanwhile, and sets the next one. -/
theorem timer_chain_sample : ∃ s s' : TimerSystem, s.hw.mtime = 5 ∧ s'.hw.mtime = 30000 ∧ s'.pos = .kernel ∧
    s'.driver = ⟨1, 30005⟩ ∧ s'.hw.stip = false ∧ s'.hw.mtimecmp = s'.driver.nextCompare ∧
    s'.driver.ticks.toNat * timerIntervalCycles ≤ s'.hw.mtime.toNat - s.hw.mtime.toNat := by
  let s : TimerSystem := ⟨⟨5, timerMax, false⟩, ⟨0, 0⟩, .kernel⟩
  let s₀ : TimerSystem := ⟨⟨5, 10005, false⟩, ⟨0, 10005⟩, .kernel⟩
  let s₁ : TimerSystem := ⟨⟨30000, 10005, false⟩, ⟨0, 10005⟩, .kernel⟩
  let s₂ : TimerSystem := ⟨⟨30000, timerMax, true⟩, ⟨0, 10005⟩, .kernel⟩
  let s₃ : TimerSystem := ⟨⟨30000, timerMax, true⟩, ⟨0, 10005⟩, .handler⟩
  let s₄ : TimerSystem := ⟨⟨30000, timerMax, true⟩, ⟨0, 10005⟩, .counting 30000⟩
  let s₅ : TimerSystem := ⟨⟨30000, timerMax, true⟩, ⟨1, 30005⟩, .rearming⟩
  let s₆ : TimerSystem := ⟨⟨30000, 30005, false⟩, ⟨1, 30005⟩, .ticking⟩
  let s₇ : TimerSystem := ⟨⟨30000, 30005, false⟩, ⟨1, 30005⟩, .kernel⟩
  have hinit : timerInit {} s = .ok s₀ := by
    rw [timerInit, timerSetDeadline_eq, show s.hw.mtime + timerInterval = 10005 by decide]
    rfl
  have hfire : exec (.machineInterrupt {}) s₁ = .ok s₂ := by
    rw [exec, machineTrapHandle_timer rfl]
    rfl
  have hcatch : timerCatchUp 30000 (2 ^ 64) 10005 = some 30005 := by
    rw [show (2 ^ 64 : Nat) = 2 ^ 64 - 2 + 1 + 1 by norm_num, timerCatchUp, if_pos (by decide), timerCatchUp,
      if_neg (by decide)]
    rfl
  have hcount : exec (.handlerStep {}) s₄ = .ok s₅ := by
    simp only [exec, handlerStep, s₄, hcatch]
    rfl
  have hset : exec (.handlerStep {}) s₅ = .ok s₆ := by
    simp only [exec, handlerStep, s₅, timerSetDeadline_eq]
    rfl
  have hrun : Run exec Enabled s₀ [.time 30000, .machineInterrupt {}, .supervisorInterrupt, .handlerStep {},
      .handlerStep {}, .handlerStep {}, .handlerStep {}] s₇ :=
    .cons ⟨by decide, by decide⟩ (show exec (.time 30000) s₀ = .ok s₁ from rfl)
      (.cons (show (10005 : U64) ≤ 30000 by decide) hfire
        (.cons ⟨rfl, rfl⟩ (show exec .supervisorInterrupt s₂ = .ok s₃ from rfl)
          (.cons trivial (show exec (.handlerStep {}) s₃ = .ok s₄ from rfl)
            (.cons trivial hcount (.cons trivial hset (.single trivial (show exec (.handlerStep {}) s₆ = .ok s₇ from rfl)))))))
  have htime : s.hw.mtime.toNat < 2 ^ 64 - timerIntervalCycles := by decide
  obtain ⟨hkernel, -, hticks, -⟩ := timer_chain htime hinit hrun
  obtain ⟨hstip, hcmp⟩ := (hkernel rfl).resolve_left fun hpending => absurd hpending.1 (by decide)
  exact ⟨s, s₇, rfl, rfl, rfl, rfl, hstip, hcmp, hticks⟩

end TimerSystem

end QemuRtos
