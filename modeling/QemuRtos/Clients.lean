import QemuRtos.Lib.Transition
import QemuRtos.User.TaskTables

/-!
# The memory subsystem and its clients

Address spaces, user tasks and clients that hold frames of their own, on one allocator. A step is a call of the
interface or a write of a client to memory. Clients free only frames they hold and write to no page table;
everything else is allowed in any order.
-/

namespace QemuRtos

open Lib

/-- The kernel, with the `vm_space_t` objects of its clients and the frames they have allocated. -/
structure Clients where
  kernel : Kernel
  spaces : Nat → VmSpace
  held : U64 → Bool

/-- A call, or a write. A null `vm_space_t *` is `none`. -/
inductive ClientOp
  | spaceInit (space : Option Nat)
  | spaceDestroy (space : Option Nat)
  | mapPage (space : Option Nat) (va pa flags : U64)
  | unmapPage (space : Option Nat) (va : U64)
  | translate (space : Option Nat) (va : U64)
  | getMapping (space : Option Nat) (va : U64)
  | pageAlloc
  | pageFree (page : U64)
  | write (mem : Mem)
  | taskInit (task : U64) (program : Option (List Byte))
  | taskMarkExited (task exitCode : U64)
  | taskDestroy (task : U64)

/-- What a call returns. -/
inductive ClientOut
  | status (result : Int)
  | address (a : U64)
  | mapping (result : Int) (mapping : Option (U64 × U64))
  | done
deriving DecidableEq

namespace Clients

def setMachine (c : Clients) (m : Machine) : Clients := { c with kernel := { c.kernel with machine := m } }

/-- The object that a `vm_space_t *` points to is overwritten. -/
def setSpace (c : Clients) : Option Nat → Option VmSpace → Clients
  | some i, some sp => { c with spaces := Function.update c.spaces i sp }
  | _, _ => c

def exec : ClientOp → Clients → Except Panic (ClientOut × Clients)
  | .spaceInit space, c => do
    let (result, sp, m) ← vmSpaceInit (space.map c.spaces) c.kernel.machine
    .ok (.status result, (c.setMachine m).setSpace space sp)
  | .spaceDestroy space, c => do
    let (result, sp, m) ← vmSpaceDestroy (space.map c.spaces) c.kernel.machine
    .ok (.status result, (c.setMachine m).setSpace space sp)
  | .mapPage space va pa flags, c => do
    let (result, m) ← vmMapPage (space.map c.spaces) va pa flags c.kernel.machine
    .ok (.status result, c.setMachine m)
  | .unmapPage space va, c => do
    let (result, m) ← vmUnmapPage (space.map c.spaces) va c.kernel.machine
    .ok (.status result, c.setMachine m)
  | .translate space va, c => do
    let (a, m) ← vmTranslate (space.map c.spaces) va c.kernel.machine
    .ok (.address a, c.setMachine m)
  | .getMapping space va, c => do
    let (result, mapping, m) ← vmGetMapping (space.map c.spaces) va c.kernel.machine
    .ok (.mapping result mapping, c.setMachine m)
  | .pageAlloc, c => do
    let (page, m) ← QemuRtos.pageAlloc c.kernel.machine
    let c := c.setMachine m
    .ok (.address page, if page = 0 then c else { c with held := Function.update c.held page true })
  | .pageFree page, c => do
    let m ← QemuRtos.pageFree page c.kernel.machine
    let c := c.setMachine m
    .ok (.done, { c with held := Function.update c.held page false })
  | .write mem, c => .ok (.done, c.setMachine { c.kernel.machine with mem := mem })
  | .taskInit task program, c => do
    let (result, k) ← userTaskInit task program c.kernel
    .ok (.status result, { c with kernel := k })
  | .taskMarkExited task exitCode, c =>
    let (result, k) := userTaskMarkExited task exitCode c.kernel
    .ok (.status result, { c with kernel := k })
  | .taskDestroy task, c => do
    let (result, k) ← userTaskDestroy task c.kernel
    .ok (.status result, { c with kernel := k })

/-- A task that has been built and not destroyed. -/
def Alive (c : Clients) (task : U64) : Prop :=
  (c.kernel.tasks task).state = .ready ∨ (c.kernel.tasks task).state = .exited

instance (c : Clients) (task : U64) : Decidable (c.Alive task) := inferInstanceAs (Decidable (_ ∨ _))

/-- Who has memory: a space its tables, a task its tables and its three pages, the clients what they allocated. -/
inductive Owner
  | space (i : Nat)
  | task (task : U64)
  | clients
deriving DecidableEq

/-- The root table of an owner's space; null when it has none. -/
def root (c : Clients) : Owner → U64
  | .space i => (c.spaces i).root
  | .task task => if c.Alive task then (c.kernel.tasks task).addressSpace.root else 0
  | .clients => 0

/-- The frames of an owner that are no page tables. -/
def frames (c : Clients) : Owner → Set U64
  | .space _ => ∅
  | .task task => if c.Alive task then (c.kernel.tasks task).frames else ∅
  | .clients => {a | c.held a = true}

/-- What callers promise: they free frames that they hold, and write to no frame that is not theirs or free, the
page tables among them. -/
def Permitted : ClientOp → Clients → Prop
  | .pageFree page, c => c.held page = true
  | .write mem, c => ∀ a, c.kernel.machine.pages.Allocated a → (∀ o, a ∉ c.frames o) →
      ∀ x, InPage a x → mem x = c.kernel.machine.mem x
  | _, _ => True

/-- Whose memory a call is about. -/
def owner : ClientOp → Option Owner
  | .spaceInit (some i) | .spaceDestroy (some i) | .mapPage (some i) _ _ _ | .unmapPage (some i) _ => some (.space i)
  | .pageAlloc | .pageFree _ => some .clients
  | .taskInit task _ | .taskMarkExited task _ | .taskDestroy task => some (.task task)
  | _ => none

/-- Each space has tables of its own, each task is as it was built, and no frame has two uses. -/
structure Ok (c : Clients) (place : TablePlaces) : Prop where
  tables : TablesOk c.kernel.machine place
  live : ∀ o, c.root o ≠ 0 → place (c.root o) = some (c.root o, [])
  roots : ∀ o o', c.root o ≠ 0 → c.root o = c.root o' → o = o'
  held : ∀ o a, a ∈ c.frames o → c.kernel.machine.pages.Allocated a ∧ place a = none
  disjoint : ∀ o o' a, a ∈ c.frames o → a ∈ c.frames o' → o = o'
  tasks : ∀ task, c.Alive task → TaskOk c.kernel.machine place (c.kernel.tasks task)

/-- A step that concerns at most the owner `o`: everybody else keeps its memory as it is. -/
structure Stepped (o : Option Owner) (c : Clients) (place : TablePlaces) (c' : Clients) (place' : TablePlaces) : Prop where
  ok : c'.Ok place'
  spaces : ∀ i, some (.space i) ≠ o → c'.spaces i = c.spaces i
  tasks : ∀ task, some (.task task) ≠ o → c'.kernel.tasks task = c.kernel.tasks task
  held : some .clients ≠ o → c'.held = c.held
  tables : ∀ o', some o' ≠ o → c.root o' ≠ 0 → ∀ s p, place' s = some (c.root o', p) ↔ place s = some (c.root o', p)
  lookup : ∀ o', some o' ≠ o → c.root o' ≠ 0 → ∀ va,
    mapped c'.kernel.machine (c.root o') va = mapped c.kernel.machine (c.root o') va
  image : c'.kernel.machine.image = c.kernel.machine.image
  range : c'.kernel.machine.pages.range = c.kernel.machine.pages.range

end Clients

theorem TaskOk.within {m m' : Machine} {place place' : TablePlaces} {r : U64} {own : Set U64} {t : UserTask}
    (h : TaskOk m place t) (hw : Within r own m place m' place') (hr : t.addressSpace.root ≠ r)
    (hown : ∀ a ∈ t.frames, a ∉ own) : TaskOk m' place' t where
  live := hw.live h.live hr
  satp := h.satp
  frames := by
    refine ⟨fun a ha hz => ?_, h.frames.code_stack, h.frames.code_context, h.frames.stack_context⟩
    obtain ⟨halloc, hp⟩ := h.frames.held a ha hz
    exact hw.not_table (hown a ⟨ha, hz⟩) halloc hp
  present := h.present
  trampoline := by
    rw [hw.image]
    exact h.trampoline
  mapping va := by
    rw [hw.lookup _ va h.live hr, hw.image]
    exact h.mapping va

namespace Clients

variable {c c' c'' : Clients} {place place' place'' : TablePlaces} {r : U64} {own : Set U64} {o : Option Owner} {m' : Machine}

theorem root_task {task : U64} (h : c.Alive task) : c.root (.task task) = (c.kernel.tasks task).addressSpace.root := if_pos h

theorem frames_task {task : U64} (h : c.Alive task) : c.frames (.task task) = (c.kernel.tasks task).frames := if_pos h

theorem alive_congr {task : U64} (h : c'.kernel.tasks task = c.kernel.tasks task) : c'.Alive task ↔ c.Alive task := by
  simp only [Alive, h]

theorem root_congr {o' : Owner} (hspaces : ∀ i, some (.space i) ≠ o → c'.spaces i = c.spaces i)
    (htasks : ∀ task, some (.task task) ≠ o → c'.kernel.tasks task = c.kernel.tasks task) (ho : some o' ≠ o) :
    c'.root o' = c.root o' := by
  cases o' with
  | space i => simp only [root, hspaces i ho]
  | task task =>
    by_cases h : c.Alive task
    · rw [root_task h, root_task ((alive_congr (htasks task ho)).mpr h), htasks task ho]
    · rw [root, root, if_neg h, if_neg (mt (alive_congr (htasks task ho)).mp h)]
  | clients => rfl

theorem frames_congr {o' : Owner} (htasks : ∀ task, some (.task task) ≠ o → c'.kernel.tasks task = c.kernel.tasks task)
    (hheld : some .clients ≠ o → c'.held = c.held) (ho : some o' ≠ o) : c'.frames o' = c.frames o' := by
  cases o' with
  | space i => rfl
  | task task =>
    by_cases h : c.Alive task
    · rw [frames_task h, frames_task ((alive_congr (htasks task ho)).mpr h), htasks task ho]
    · rw [frames, frames, if_neg h, if_neg (mt (alive_congr (htasks task ho)).mp h)]
  | clients => simp only [frames, hheld ho]

namespace Stepped

theorem root (h : Stepped o c place c' place') {o' : Owner} (ho : some o' ≠ o) : c'.root o' = c.root o' :=
  root_congr h.spaces h.tasks ho

theorem frames (h : Stepped o c place c' place') {o' : Owner} (ho : some o' ≠ o) : c'.frames o' = c.frames o' :=
  frames_congr h.tasks h.held ho

end Stepped

/-- A step that changes at most the tables with root `r` and the frames in `own`, when these are the owner's or
nobody's, keeps the invariant if the owner comes out well. -/
theorem Ok.step (h : c.Ok place) (hw : Within r own c.kernel.machine place c'.kernel.machine place')
    (hspaces : ∀ i, some (.space i) ≠ o → c'.spaces i = c.spaces i)
    (htasks : ∀ task, some (.task task) ≠ o → c'.kernel.tasks task = c.kernel.tasks task)
    (hheld : some .clients ≠ o → c'.held = c.held)
    (hr : ∀ o', some o' ≠ o → c.root o' ≠ 0 → c.root o' ≠ r) (hown : ∀ o', some o' ≠ o → ∀ a ∈ c.frames o', a ∉ own)
    (hroot : ∀ o', some o' = o → c'.root o' ≠ 0 →
      place' (c'.root o') = some (c'.root o', []) ∧ ∀ o'', some o'' ≠ o → c.root o'' ≠ c'.root o')
    (hframes : ∀ o', some o' = o → ∀ a ∈ c'.frames o', c'.kernel.machine.pages.Allocated a ∧ place' a = none ∧
      ∀ o'', some o'' ≠ o → a ∉ c.frames o'')
    (htask : ∀ task, some (.task task) = o → c'.Alive task → TaskOk c'.kernel.machine place' (c'.kernel.tasks task)) :
    Stepped o c place c' place' := by
  have hroots : ∀ o', some o' ≠ o → c'.root o' = c.root o' := fun o' ho => root_congr hspaces htasks ho
  have hfs : ∀ o', some o' ≠ o → c'.frames o' = c.frames o' := fun o' ho => frames_congr htasks hheld ho
  refine ⟨⟨hw.ok, fun o' hz => ?_, fun o₁ o₂ hz he => ?_, fun o' a ha => ?_, fun o₁ o₂ a h₁ h₂ => ?_, fun task halive => ?_⟩,
    hspaces, htasks, hheld, fun o' ho hz s p => hw.others s _ (hr o' ho hz),
    fun o' ho hz va => hw.lookup _ va (h.live o' hz) (hr o' ho hz), hw.image, hw.range⟩
  · by_cases ho : some o' = o
    · exact (hroot o' ho hz).1
    · rw [hroots o' ho] at hz ⊢
      exact (hw.others _ (c.root o', []) (hr o' ho hz)).mpr (h.live o' hz)
  · by_cases h₁ : some o₁ = o
    · by_cases h₂ : some o₂ = o
      · exact Option.some.inj (h₁.trans h₂.symm)
      · rw [hroots o₂ h₂] at he
        exact absurd he.symm ((hroot o₁ h₁ hz).2 o₂ h₂)
    · by_cases h₂ : some o₂ = o
      · rw [he] at hz
        rw [hroots o₁ h₁] at he
        exact absurd he ((hroot o₂ h₂ hz).2 o₁ h₁)
      · rw [hroots o₁ h₁] at hz he
        rw [hroots o₂ h₂] at he
        exact h.roots o₁ o₂ hz he
  · by_cases ho : some o' = o
    · obtain ⟨halloc, hp, -⟩ := hframes o' ho a ha
      exact ⟨halloc, hp⟩
    · rw [hfs o' ho] at ha
      obtain ⟨halloc, hp⟩ := h.held o' a ha
      exact hw.not_table (hown o' ho a ha) halloc hp
  · by_cases ho₁ : some o₁ = o
    · by_cases ho₂ : some o₂ = o
      · exact Option.some.inj (ho₁.trans ho₂.symm)
      · rw [hfs o₂ ho₂] at h₂
        exact absurd h₂ ((hframes o₁ ho₁ a h₁).2.2 o₂ ho₂)
    · by_cases ho₂ : some o₂ = o
      · rw [hfs o₁ ho₁] at h₁
        exact absurd h₁ ((hframes o₂ ho₂ a h₂).2.2 o₁ ho₁)
      · rw [hfs o₁ ho₁] at h₁
        rw [hfs o₂ ho₂] at h₂
        exact h.disjoint o₁ o₂ a h₁ h₂
  · by_cases ho : some (.task task) = o
    · exact htask task ho halive
    · have halive' : c.Alive task := by
        exact (alive_congr (htasks task ho)).mp halive
      have hok := h.tasks task halive'
      have hz : c.root (.task task) ≠ 0 := by
        rw [root_task halive']
        exact h.tables.root_ne_zero hok.live
      rw [htasks task ho]
      refine hok.within hw ?_ fun a ha => hown (.task task) ho a ?_
      · rw [← root_task halive']
        exact hr (.task task) ho hz
      · rw [frames_task halive']
        exact ha

theorem Stepped.refl (h : c.Ok place) (o : Option Owner) : Stepped o c place c place where
  ok := h
  spaces _ _ := rfl
  tasks _ _ := rfl
  held _ := rfl
  tables _ _ _ _ _ := Iff.rfl
  lookup _ _ _ _ := rfl
  image := rfl
  range := rfl

/-! ### Calls on a space -/

theorem Ok.liveSpace (h : c.Ok place) {i : Nat} (hz : (c.spaces i).root ≠ 0) : Live place (c.spaces i) := h.live (.space i) hz

theorem setSpace_self (c : Clients) (i : Nat) : c.setSpace (some i) (some (c.spaces i)) = c := by
  show ({ c with spaces := Function.update c.spaces i (c.spaces i) } : Clients) = c
  rw [Function.update_eq_self]

theorem Ok.space_step (h : c.Ok place) (i : Nat) (sp : Option VmSpace)
    (hw : Within r ∅ c.kernel.machine place m' place')
    (hr : ∀ o', some o' ≠ some (.space i) → c.root o' ≠ 0 → c.root o' ≠ r)
    (hroot : (sp.getD (c.spaces i)).root ≠ 0 → Live place' (sp.getD (c.spaces i)) ∧
      ∀ o', some o' ≠ some (.space i) → c.root o' ≠ (sp.getD (c.spaces i)).root) :
    Stepped (some (.space i)) c place ((c.setMachine m').setSpace (some i) sp) place' := by
  have hk : ((c.setMachine m').setSpace (some i) sp).kernel = (c.setMachine m').kernel := by cases sp <;> rfl
  have hheld : ((c.setMachine m').setSpace (some i) sp).held = c.held := by cases sp <;> rfl
  have hspace : ((c.setMachine m').setSpace (some i) sp).spaces = Function.update c.spaces i (sp.getD (c.spaces i)) := by
    cases sp with
    | none => exact (Function.update_eq_self i c.spaces).symm
    | some sp => rfl
  have hw' : Within r ∅ c.kernel.machine place ((c.setMachine m').setSpace (some i) sp).kernel.machine place' := by
    rw [hk]
    exact hw
  refine h.step hw' (fun j hj => ?_) (fun task _ => by rw [hk]; rfl) (fun _ => hheld) hr (fun _ _ _ _ => id) ?_ ?_ ?_
  · rw [hspace, Function.update_of_ne fun he => hj (by rw [he])]
  · rintro o' ho
    obtain rfl := Option.some.inj ho
    have he : ((c.setMachine m').setSpace (some i) sp).root (.space i) = (sp.getD (c.spaces i)).root := by
      show (((c.setMachine m').setSpace (some i) sp).spaces i).root = _
      rw [hspace, Function.update_self]
    rw [he]
    exact hroot
  · rintro o' ho a ha
    obtain rfl := Option.some.inj ho
    exact ha.elim
  · rintro task ⟨⟩

theorem Ok.table_step (h : c.Ok place) {i : Nat} (hz : (c.spaces i).root ≠ 0)
    (hw : Within (c.spaces i).root ∅ c.kernel.machine place m' place') (hlive : Live place' (c.spaces i)) :
    Stepped (some (.space i)) c place (c.setMachine m') place' := by
  have hne : ∀ o', some o' ≠ some (.space i) → c.root o' ≠ (c.spaces i).root := fun o' ho he =>
    ho (congrArg some (h.roots (.space i) o' hz he.symm).symm)
  exact h.space_step i none hw (fun o' ho _ => hne o' ho) fun _ => ⟨hlive, hne⟩

theorem spaceInit_step (h : c.Ok place) (i : Nat) :
    ∃ result c' place', exec (.spaceInit (some i)) c = .ok (.status result, c') ∧
      Stepped (some (.space i)) c place c' place' ∧
      (result = vmErrNoMemory ∧ c' = c ∨
        result = vmOk ∧ (c'.spaces i).root ≠ 0 ∧ ∀ va, mapped c'.kernel.machine (c'.spaces i).root va = none) := by
  obtain ⟨result, space', m', hrun, hres⟩ := vmSpaceInit_within ∅ h.tables (c.spaces i)
  have hexec : exec (.spaceInit (some i)) c = .ok (.status result, (c.setMachine m').setSpace (some i) space') := by
    show (vmSpaceInit (some (c.spaces i)) c.kernel.machine >>= _) = _
    rw [hrun]
    rfl
  obtain ⟨hresult, -, rfl, rfl⟩ | ⟨root, hresult, -, rfl, hnone, hfresh, hw, hempty⟩ := hres
  · refine ⟨result, c, place, hexec.trans ?_, Stepped.refl h _, .inl ⟨hresult, rfl⟩⟩
    rw [show c.setMachine c.kernel.machine = c from rfl, setSpace_self]
  · have hne : ∀ o', c.root o' ≠ 0 → c.root o' ≠ root := by
      intro o' hz he
      have := h.live o' hz
      rw [he, hnone] at this
      cases this
    have hlive : Function.update place root (some (root, [])) root = some (root, []) := Function.update_self ..
    have hz : root ≠ 0 := hw.ok.ne_zero hlive
    refine ⟨result, _, _, hexec, h.space_step i (some ⟨root⟩) hw (fun o' _ hz => hne o' hz) fun hz => ⟨hlive, ?_⟩,
      .inr ⟨hresult, ?_, ?_⟩⟩
    · intro o' _ he
      exact hne o' (he ▸ hz) he
    · show (Function.update c.spaces i _ i).root ≠ 0
      rw [Function.update_self]
      exact hz
    · show ∀ va, mapped m' (Function.update c.spaces i _ i).root va = none
      rw [Function.update_self]
      exact hempty

theorem spaceDestroy_step (h : c.Ok place) {i : Nat} (hz : (c.spaces i).root ≠ 0) :
    ∃ result c' place', exec (.spaceDestroy (some i)) c = .ok (.status result, c') ∧
      Stepped (some (.space i)) c place c' place' ∧
      (result = vmErrBusy ∧ (∃ va, mapped c.kernel.machine (c.spaces i).root va ≠ none) ∧ c' = c ∨
        result = vmOk ∧ (∀ va, mapped c.kernel.machine (c.spaces i).root va = none) ∧ (c'.spaces i).root = 0 ∧
        ∀ a, c'.kernel.machine.pages.Allocated a ↔
          c.kernel.machine.pages.Allocated a ∧ ∀ p, place a ≠ some ((c.spaces i).root, p)) := by
  have hl := h.liveSpace hz
  obtain ⟨result, space', m', hrun, hout⟩ := vmSpaceDestroy_spec h.tables hl
  have hexec : exec (.spaceDestroy (some i)) c = .ok (.status result, (c.setMachine m').setSpace (some i) space') := by
    show (vmSpaceDestroy (some (c.spaces i)) c.kernel.machine >>= _) = _
    rw [hrun]
    rfl
  cases hout with
  | busy hmapped =>
    refine ⟨vmErrBusy, c, place, hexec.trans ?_, Stepped.refl h _, .inl ⟨rfl, hmapped, rfl⟩⟩
    rw [show c.setMachine c.kernel.machine = c from rfl, setSpace_self]
  | ok hmapped hok hplaces hallocated hre hlookup =>
    obtain ⟨m₁, place₁, hrun₁, hw, -⟩ := vmSpaceDestroy_within ∅ h.tables hl hmapped
    obtain rfl : m' = m₁ := congrArg (fun x => x.2.2) (Except.ok.inj (hrun.symm.trans hrun₁))
    have hne : ∀ o', some o' ≠ some (.space i) → c.root o' ≠ 0 → c.root o' ≠ (c.spaces i).root := fun o' ho _ he =>
      ho (congrArg some (h.roots (.space i) o' hz he.symm).symm)
    refine ⟨vmOk, _, place₁, hexec, h.space_step i (some ⟨0⟩) hw hne fun hn => absurd rfl hn,
      .inr ⟨rfl, hmapped, ?_, hallocated⟩⟩
    show (Function.update c.spaces i _ i).root = 0
    rw [Function.update_self]

theorem mapPage_step (h : c.Ok place) {i : Nat} (hz : (c.spaces i).root ≠ 0) (va pa flags : U64) :
    ∃ result m' place', exec (.mapPage (some i) va pa flags) c = .ok (.status result, c.setMachine m') ∧
      Stepped (some (.space i)) c place (c.setMachine m') place' ∧
      MapOutcome c.kernel.machine place (c.spaces i) va pa flags result m' := by
  have hl := h.liveSpace hz
  obtain ⟨result, m', hrun, hout⟩ := vmMapPage_spec va pa flags h.tables hl
  obtain ⟨_, m₁, place₁, hrun₁, hw, hlive, -⟩ := vmMapPage_within va pa flags ∅ h.tables hl
  obtain ⟨rfl, rfl⟩ := Prod.mk.inj (Except.ok.inj (hrun.symm.trans hrun₁))
  refine ⟨result, m', place₁, ?_, h.table_step hz hw hlive, hout⟩
  show (vmMapPage (some (c.spaces i)) va pa flags c.kernel.machine >>= _) = _
  rw [hrun]
  rfl

theorem unmapPage_step (h : c.Ok place) {i : Nat} (hz : (c.spaces i).root ≠ 0) (va : U64) :
    ∃ result m', exec (.unmapPage (some i) va) c = .ok (.status result, c.setMachine m') ∧
      Stepped (some (.space i)) c place (c.setMachine m') place ∧
      UnmapOutcome c.kernel.machine place (c.spaces i) va result m' := by
  have hl := h.liveSpace hz
  obtain ⟨result, m', hrun, hout⟩ := vmUnmapPage_spec va h.tables hl
  have hexec : exec (.unmapPage (some i) va) c = .ok (.status result, c.setMachine m') := by
    show (vmUnmapPage (some (c.spaces i)) va c.kernel.machine >>= _) = _
    rw [hrun]
    rfl
  refine ⟨result, m', hexec, ?_, hout⟩
  by_cases hva : vaIsCanonical va = true ∧ pageAligned va = true
  · obtain ⟨_, m₁, hrun₁, hw, -⟩ := vmUnmapPage_within ∅ h.tables hl hva
    obtain ⟨-, rfl⟩ := Prod.mk.inj (Except.ok.inj (hrun.symm.trans hrun₁))
    exact h.table_step hz hw hl
  · cases hout with
    | invalid => exact Stepped.refl h _
    | notMapped hargs => exact absurd hargs hva
    | ok hargs => exact absurd hargs hva

/-- A pointer that is null or points to a space without tables. -/
def NullSpace (c : Clients) (space : Option Nat) : Prop := ∀ i, space = some i → (c.spaces i).root = 0

theorem NullSpace.of_root {i : Nat} (hz : (c.spaces i).root = 0) : c.NullSpace (some i) := by
  rintro j hj
  rw [← Option.some.inj hj]
  exact hz

theorem nullSpace_or (c : Clients) (space : Option Nat) :
    c.NullSpace space ∨ ∃ i, space = some i ∧ (c.spaces i).root ≠ 0 := by
  cases space with
  | none => exact .inl (by rintro i ⟨⟩)
  | some i =>
    by_cases hz : (c.spaces i).root = 0
    · exact .inl (.of_root hz)
    · exact .inr ⟨i, rfl, hz⟩

theorem mapPage_null {space : Option Nat} (hz : c.NullSpace space) (va pa flags : U64) :
    exec (.mapPage space va pa flags) c = .ok (.status vmErrInvalid, c) := by
  cases space with
  | none => rfl
  | some i =>
    show (vmMapPage (some (c.spaces i)) va pa flags c.kernel.machine >>= _) = _
    rw [vmMapPage, if_pos (.inl (hz i rfl))]
    rfl

theorem unmapPage_null {space : Option Nat} (hz : c.NullSpace space) (va : U64) :
    exec (.unmapPage space va) c = .ok (.status vmErrInvalid, c) := by
  cases space with
  | none => rfl
  | some i =>
    show (vmUnmapPage (some (c.spaces i)) va c.kernel.machine >>= _) = _
    rw [vmUnmapPage, if_pos (.inl (hz i rfl))]
    rfl

theorem spaceDestroy_null {space : Option Nat} (hz : c.NullSpace space) :
    exec (.spaceDestroy space) c = .ok (.status vmErrInvalid, c) := by
  cases space with
  | none => rfl
  | some i =>
    show (vmSpaceDestroy (some (c.spaces i)) c.kernel.machine >>= _) = _
    rw [vmSpaceDestroy, if_pos (hz i rfl), ok_bind]
    show Except.ok (ClientOut.status vmErrInvalid, c.setSpace (some i) (some (c.spaces i))) = _
    rw [setSpace_self]

theorem vmWalk_null {space : Option Nat} (hz : c.NullSpace space) (va : U64) (alloc : Bool) (m : Machine) :
    vmWalk (space.map c.spaces) va alloc m = .ok (0, m) := by
  cases space with
  | none => rfl
  | some i =>
    show vmWalk (some (c.spaces i)) va alloc m = _
    rw [vmWalk, if_pos (.inl (hz i rfl))]

theorem getMapping_null {space : Option Nat} (hz : c.NullSpace space) (va : U64) :
    exec (.getMapping space va) c = .ok (.mapping vmErrNotMapped none, c) := by
  show (vmGetMapping (space.map c.spaces) va c.kernel.machine >>= _) = _
  simp only [vmGetMapping, vmWalk_null hz]
  rfl

theorem translate_null {space : Option Nat} (hz : c.NullSpace space) (va : U64) :
    exec (.translate space va) c = .ok (.address vmTranslateInvalid, c) := by
  show (vmTranslate (space.map c.spaces) va c.kernel.machine >>= _) = _
  simp only [vmTranslate, vmWalk_null hz]
  rfl

theorem getMapping_exec (h : c.Ok place) {i : Nat} (hz : (c.spaces i).root ≠ 0) (va : U64) :
    exec (.getMapping (some i) va) c = .ok (match mapped c.kernel.machine (c.spaces i).root va with
      | none => .mapping vmErrNotMapped none
      | some pte => .mapping vmOk (some (pteToPa pte ||| pageOffset va, pte &&& sv39PteFlagMask)), c) := by
  show (vmGetMapping (some (c.spaces i)) va c.kernel.machine >>= _) = _
  rw [vmGetMapping_spec h.tables (h.liveSpace hz), ok_bind]
  cases mapped c.kernel.machine (c.spaces i).root va <;> rfl

theorem translate_exec (h : c.Ok place) {i : Nat} (hz : (c.spaces i).root ≠ 0) (va : U64) :
    exec (.translate (some i) va) c = .ok (.address ((mapped c.kernel.machine (c.spaces i).root va).elim vmTranslateInvalid
      fun pte => pteToPa pte ||| pageOffset va), c) := by
  show (vmTranslate (some (c.spaces i)) va c.kernel.machine >>= _) = _
  rw [vmTranslate_spec h.tables (h.liveSpace hz)]
  rfl

/-! ### Frames of the clients -/

theorem pageAlloc_step (h : c.Ok place) :
    ∃ a c', exec .pageAlloc c = .ok (.address a, c') ∧ Stepped (some .clients) c place c' place ∧
      ∀ b, c'.kernel.machine.pages.Allocated b ↔ c.kernel.machine.pages.Allocated b ∨ b = a ∧ a ≠ 0 := by
  obtain ⟨a, p', hrun, hok, hw, hfresh, halloc⟩ := pageAlloc_within h.tables
  let c₁ : Clients := c.setMachine { c.kernel.machine with pages := p' }
  let c' : Clients := if a = 0 then c₁ else { c₁ with held := Function.update c₁.held a true }
  have hk : c'.kernel = c₁.kernel := by
    dsimp only [c']
    split <;> rfl
  have hheld : ∀ b, c'.held b = true ↔ c.held b = true ∨ b = a ∧ a ≠ 0 := by
    intro b
    dsimp only [c']
    split
    next ha => simp only [ha, ne_eq, not_true_eq_false, and_false, or_false]; rfl
    next ha =>
      show Function.update c.held a true b = true ↔ _
      by_cases hb : b = a
      · rw [hb, Function.update_self]
        exact ⟨fun _ => .inr ⟨rfl, ha⟩, fun _ => rfl⟩
      · rw [Function.update_of_ne hb]
        exact ⟨.inl, fun h => h.elim id fun he => absurd he.1 hb⟩
  have hw' : Within 0 {a} c.kernel.machine place c'.kernel.machine place := by
    rw [hk]
    exact hw 0 {a} fun _ => rfl
  refine ⟨a, c', ?_, h.step hw' (fun j _ => ?_) (fun task _ => by rw [hk]; rfl) (fun ho => absurd rfl ho) (fun _ _ hz => hz)
    ?_ ?_ ?_ ?_, fun b => ?_⟩
  · show (QemuRtos.pageAlloc c.kernel.machine >>= _) = _
    rw [hrun]
    rfl
  · dsimp only [c']
    split <;> rfl
  · rintro o' - b hb rfl
    obtain ⟨halloc', -⟩ := h.held o' b hb
    exact (hfresh (halloc'.1.ne_zero h.tables.pages)).1 halloc'
  · rintro o' ho hz
    obtain rfl := Option.some.inj ho
    exact absurd rfl hz
  · rintro o' ho b hb
    obtain rfl := Option.some.inj ho
    rw [hk]
    obtain hb | ⟨rfl, hz⟩ := (hheld b).mp hb
    · obtain ⟨halloc', hp⟩ := h.held .clients b hb
      exact ⟨(halloc b).mpr (.inl halloc'), hp, fun o'' ho hb' => ho (congrArg some (h.disjoint _ _ b hb' hb))⟩
    · refine ⟨(halloc b).mpr (.inr ⟨rfl, hz⟩), (hfresh hz).2, fun o'' _ hb' => ?_⟩
      exact (hfresh hz).1 (h.held o'' b hb').1
  · rintro task ⟨⟩
  · rw [hk]
    exact halloc b

theorem pageFree_step (h : c.Ok place) {a : U64} (hheld : c.held a = true) :
    ∃ c', exec (.pageFree a) c = .ok (.done, c') ∧ Stepped (some .clients) c place c' place ∧
      ∀ b, c'.kernel.machine.pages.Allocated b ↔ c.kernel.machine.pages.Allocated b ∧ b ≠ a := by
  obtain ⟨halloc, hp⟩ := h.held .clients a hheld
  obtain ⟨p', hrun, hok, hg⟩ := pageFree_spec h.tables.pages halloc
  let c' : Clients := { c.setMachine { c.kernel.machine with pages := p' } with held := Function.update c.held a false }
  have hheld' : ∀ b, c'.held b = true ↔ c.held b = true ∧ b ≠ a := by
    intro b
    show Function.update c.held a false b = true ↔ _
    by_cases hb : b = a
    · simp [hb]
    · simp [hb]
  refine ⟨c', ?_, h.step (Within.of_given 0 h.tables hok hg (Set.mem_singleton a) hp) (fun _ _ => rfl) (fun _ _ => rfl)
    (fun ho => absurd rfl ho) (fun _ _ hz => hz) ?_ ?_ ?_ ?_, hg.allocated⟩
  · show (QemuRtos.pageFree a c.kernel.machine >>= _) = _
    rw [hrun]
    rfl
  · rintro o' ho b hb rfl
    exact ho (congrArg some (h.disjoint _ _ b hb hheld))
  · rintro o' ho hz
    obtain rfl := Option.some.inj ho
    exact absurd rfl hz
  · rintro o' ho b hb'
    obtain rfl := Option.some.inj ho
    obtain ⟨hb', hne⟩ := (hheld' b).mp hb'
    obtain ⟨halloc', hp'⟩ := h.held .clients b hb'
    exact ⟨(hg.allocated b).mpr ⟨halloc', hne⟩, hp', fun o'' ho hb'' => ho (congrArg some (h.disjoint _ _ b hb'' hb'))⟩
  · rintro task ⟨⟩

theorem write_step (h : c.Ok place) {mem : Mem} (hp : c.Permitted (.write mem)) :
    ∃ c', exec (.write mem) c = .ok (.done, c') ∧ Stepped none c place c' place := by
  have hkeep : ∀ t, place t ≠ none → ∀ x, InPage t x → mem x = c.kernel.machine.mem x := by
    intro t ht x hx
    obtain ⟨y, hy⟩ := Option.ne_none_iff_exists'.mp ht
    refine hp t (h.tables.allocated hy) (fun o ho => ?_) x hx
    rw [(h.held o t ho).2] at hy
    cases hy
  refine ⟨_, rfl, h.step (Within.of_write mem 0 ∅ h.tables hkeep).1 (fun _ _ => rfl) (fun _ _ => rfl) (fun _ => rfl)
    (fun _ _ hz => hz) (fun _ _ _ _ => id) ?_ ?_ ?_⟩
  all_goals rintro _ ⟨⟩

/-! ### Tasks -/

theorem not_alive_of_canInit {task : U64} (h : userTaskCanInit task c.kernel = true) : ¬c.Alive task := by
  rintro (hs | hs) <;> simp [userTaskCanInit, hs] at h

theorem not_alive {task : U64} (h : ¬c.Alive task) : c.root (.task task) = 0 ∧ c.frames (.task task) = ∅ :=
  ⟨if_neg h, if_neg h⟩

theorem Ok.taskVa (h : c.Ok place) {task : U64} (halive : c.Alive task) {va : U64}
    (hva : mapped c.kernel.machine (c.kernel.tasks task).addressSpace.root va ≠ none) : TaskVa va := by
  rw [(h.tasks task halive).mapping, taskMapping] at hva
  by_contra hno
  obtain ⟨hcode, hstack, htrampoline, hcontext⟩ : ¬SamePage va userSpaceCodeBase ∧ ¬SamePage va userSpaceStackBase ∧
      ¬SamePage va userTrampolineVa ∧ ¬SamePage va userTrapContextVa := by
    simpa only [TaskVa, not_or] using hno
  rw [if_neg hcontext, if_neg htrampoline, if_neg hstack, if_neg hcode] at hva
  exact hva rfl

theorem Ok.task_step (h : c.Ok place) {task : U64} {k' : Kernel} (hw : Within r own c.kernel.machine place k'.machine place')
    (htasks : ∀ t ≠ task, k'.tasks t = c.kernel.tasks t)
    (hr : ∀ o', some o' ≠ some (.task task) → c.root o' ≠ 0 → c.root o' ≠ r)
    (hown : ∀ o', some o' ≠ some (.task task) → ∀ a ∈ c.frames o', a ∉ own)
    (htask : ({ c with kernel := k' } : Clients).Alive task → TaskOk k'.machine place' (k'.tasks task) ∧
      (∀ o', some o' ≠ some (.task task) → c.root o' ≠ (k'.tasks task).addressSpace.root) ∧
      ∀ a ∈ (k'.tasks task).frames, ∀ o', some o' ≠ some (.task task) → a ∉ c.frames o') :
    Stepped (some (.task task)) c place { c with kernel := k' } place' := by
  refine h.step hw (fun _ _ => rfl) (fun t ht => htasks t fun he => ht (by rw [he])) (fun _ => rfl) hr hown ?_ ?_ ?_
  · rintro o' ho hz
    obtain rfl := Option.some.inj ho
    by_cases halive : ({ c with kernel := k' } : Clients).Alive task
    · rw [root_task halive] at hz ⊢
      obtain ⟨hok, hne, -⟩ := htask halive
      exact ⟨hok.live, hne⟩
    · exact absurd (not_alive halive).1 hz
  · rintro o' ho a ha
    obtain rfl := Option.some.inj ho
    by_cases halive : ({ c with kernel := k' } : Clients).Alive task
    · rw [frames_task halive] at ha
      obtain ⟨hok, -, hdisj⟩ := htask halive
      obtain ⟨halloc, hp⟩ := hok.frames.held a ha.1 ha.2
      exact ⟨halloc, hp, hdisj a ha⟩
    · rw [(not_alive halive).2] at ha
      exact ha.elim
  · rintro t ht halive
    obtain rfl := Owner.task.inj (Option.some.inj ht)
    exact (htask halive).1

/-- All frames of an owner: its page tables, and what its calls have handed to it. -/
def owned (c : Clients) (place : TablePlaces) (o : Owner) : Set U64 :=
  {a | (∃ p, place a = some (c.root o, p)) ∨ a ∈ c.frames o}

inductive TaskInitOutcome (c : Clients) (place : TablePlaces) (task : U64) : Int → Clients → TablePlaces → Prop
  | refused : TaskInitOutcome c place task (-1) c place
  | failed {c' : Clients} (hcan : userTaskCanInit task c.kernel = true) (h : Preserved c.kernel.machine place c'.kernel.machine)
    (hinit : userTaskCanInit task c'.kernel = true) : TaskInitOutcome c place task (-1) c' place
  | built {c' : Clients} {place' : TablePlaces} (hcan : userTaskCanInit task c.kernel = true) (hnull : task ≠ 0) (hstate : (c'.kernel.tasks task).state = .ready)
    (hfresh : ∀ a ∈ c'.owned place' (.task task), ¬c.kernel.machine.pages.Allocated a)
    (halloc : ∀ a, c'.kernel.machine.pages.Allocated a ↔
      c.kernel.machine.pages.Allocated a ∨ a ∈ c'.owned place' (.task task)) : TaskInitOutcome c place task 0 c' place'

theorem taskInit_step (h : c.Ok place) (task : U64) (program : Option (List Byte)) :
    ∃ result c' place', exec (.taskInit task program) c = .ok (.status result, c') ∧
      Stepped (some (.task task)) c place c' place' ∧ TaskInitOutcome c place task result c' place' ∧
      (∀ bytes, program = some bytes → userTaskCanInit task c.kernel = true → bytes.length ≠ 0 → bytes.length ≤ pageSize →
        result = 0 ∨ userTaskCanInit task c'.kernel = true) := by
  have hrefuse : userTaskInit task program c.kernel = .ok (-1, c.kernel) → (∀ bytes, program = some bytes →
      userTaskCanInit task c.kernel = true → bytes.length ≠ 0 → bytes.length ≤ pageSize → False) →
      ∃ result c' place', exec (.taskInit task program) c = .ok (.status result, c') ∧
      Stepped (some (.task task)) c place c' place' ∧ TaskInitOutcome c place task result c' place' ∧
      (∀ bytes, program = some bytes → userTaskCanInit task c.kernel = true → bytes.length ≠ 0 → bytes.length ≤ pageSize →
        result = 0 ∨ userTaskCanInit task c'.kernel = true) := by
    intro hrun hno
    refine ⟨-1, c, place, ?_, Stepped.refl h _, .refused, fun bytes hp hi hz hl => (hno bytes hp hi hz hl).elim⟩
    show (userTaskInit task program c.kernel >>= _) = _
    rw [hrun]
    rfl
  cases program with
  | none => exact hrefuse rfl (by rintro bytes ⟨⟩)
  | some bytes =>
    by_cases hguard : task = 0 ∨ bytes.length = 0 ∨ bytes.length > pageSize ∨ (!userTaskCanInit task c.kernel) = true
    · refine hrefuse (by rw [userTaskInit, if_pos hguard]) ?_
      rintro bytes' hb hi hz hl
      obtain rfl := Option.some.inj hb
      obtain rfl | hg | hg | hg := hguard
      · simp [userTaskCanInit] at hi
      · exact hz hg
      · omega
      · rw [hi] at hg
        cases hg
    · simp only [not_or, Bool.not_eq_true', Bool.not_eq_false] at hguard
      obtain ⟨hnull, hz, hlen, hinit⟩ := hguard
      obtain ⟨result, k', hrun, hres⟩ := userTaskInit_result h.tables ⟨hz, not_lt.mp hlen⟩ hinit
      have hexec : exec (.taskInit task (some bytes)) c = .ok (.status result, { c with kernel := k' }) := by
        show (userTaskInit task (some bytes) c.kernel >>= _) = _
        rw [hrun]
        rfl
      have htasks : ∀ t ≠ task, k'.tasks t = c.kernel.tasks t := by
        intro t ht
        obtain rfl | hchange := userTaskInit_ok h.tables.pages hrun
        · rfl
        · rw [hchange.tasks_eq, Function.update_of_ne ht]
      cases hres with
      | failed hpre hinit' =>
        have hdead : ¬({ c with kernel := k' } : Clients).Alive task := not_alive_of_canInit hinit'
        exact ⟨-1, _, place, hexec, h.task_step (hpre.within 0) htasks (fun _ _ hz => hz) (fun _ _ _ _ => id)
          (fun halive => absurd halive hdead), .failed hinit hpre hinit', fun _ _ _ _ _ => .inr hinit'⟩
      | @built _ place' hw hok hstate hroot hfresh =>
        have halive : ({ c with kernel := k' } : Clients).Alive task := .inl hstate
        have hne : ∀ o', c.root o' ≠ 0 → c.root o' ≠ (k'.tasks task).addressSpace.root := by
          intro o' hz he
          have := h.live o' hz
          rw [he] at this
          exact hroot _ _ this
        have hown : ∀ o', ∀ a ∈ c.frames o', a ∉ (k'.tasks task).frames := fun o' a ha ha' => hfresh a ha' (h.held o' a ha).1
        have howned : ∀ a, a ∈ ({ c with kernel := k' } : Clients).owned place' (.task task) ↔
            (∃ p, place' a = some ((k'.tasks task).addressSpace.root, p)) ∨ a ∈ (k'.tasks task).frames := by
          intro a
          show (∃ p, place' a = some (({ c with kernel := k' } : Clients).root (.task task), p)) ∨
            a ∈ ({ c with kernel := k' } : Clients).frames (.task task) ↔ _
          rw [root_task halive, frames_task halive]
        have hnew : ∀ a, a ∈ ({ c with kernel := k' } : Clients).owned place' (.task task) →
            ¬c.kernel.machine.pages.Allocated a := by
          intro a ha halloc
          by_cases hf : a ∈ (k'.tasks task).frames
          · exact hfresh a hf halloc
          · obtain ⟨p, hp⟩ := ((howned a).mp ha).resolve_right hf
            exact ((hw.allocated a hf).mpr ⟨halloc, fun p => hroot a p⟩).2 p hp
        refine ⟨0, _, place', hexec, h.task_step hw htasks (fun o' _ hz => hne o' hz) (fun o' _ => hown o') (fun _ =>
          ⟨hok, fun o' _ he => ?_, fun a ha o' _ ha' => hown o' a ha' ha⟩), .built hinit hnull hstate hnew fun a => ?_,
          fun _ _ _ _ _ => .inl rfl⟩
        · exact hne o' (he ▸ hw.ok.root_ne_zero hok.live) he
        · constructor
          · intro ha
            by_cases hf : a ∈ (k'.tasks task).frames
            · exact .inr ((howned a).mpr (.inr hf))
            by_cases hp : ∃ p, place' a = some ((k'.tasks task).addressSpace.root, p)
            · exact .inr ((howned a).mpr (.inl hp))
            · exact .inl ((hw.allocated a hf).mp ⟨ha, not_exists.mp hp⟩).1
          · rintro (ha | ha)
            · by_cases hf : a ∈ (k'.tasks task).frames
              · exact (hok.frames.held a hf.1 hf.2).1
              · exact ((hw.allocated a hf).mpr ⟨ha, fun p => hroot a p⟩).1
            · obtain ⟨p, hp⟩ | hf := (howned a).mp ha
              · exact hw.ok.allocated hp
              · exact (hok.frames.held a hf.1 hf.2).1

theorem Ok.isReady (h : c.Ok place) {task : U64} (hnull : task ≠ 0) (hstate : (c.kernel.tasks task).state = .ready) :
    userTaskIsReady task c.kernel = true := by
  have hok := h.tasks task (.inl hstate)
  have hroot : (c.kernel.tasks task).addressSpace.root ≠ 0 := h.tables.root_ne_zero hok.live
  simp only [userTaskIsReady, Bool.and_eq_true, decide_eq_true_eq]
  exact ⟨⟨⟨⟨hnull, hstate⟩, hroot⟩, hok.satp⟩, hok.present.2.2⟩

inductive MarkExitedOutcome (c : Clients) (task exitCode : U64) : Int → Clients → Prop
  | refused (hstate : userTaskIsReady task c.kernel = false) : MarkExitedOutcome c task exitCode (-1) c
  | exited (hstate : (c.kernel.tasks task).state = .ready) : MarkExitedOutcome c task exitCode 0
      { c with kernel := c.kernel.setTask task fun t => { t with state := .exited, exitCode := exitCode } }

theorem taskMarkExited_step (h : c.Ok place) (task exitCode : U64) :
    ∃ result c', exec (.taskMarkExited task exitCode) c = .ok (.status result, c') ∧
      Stepped (some (.task task)) c place c' place ∧ MarkExitedOutcome c task exitCode result c' := by
  by_cases hready : userTaskIsReady task c.kernel = true
  · have hstate : (c.kernel.tasks task).state = .ready := by
      by_contra hs
      rw [not_ready_of_state hs] at hready
      cases hready
    have halive : c.Alive task := .inl hstate
    let k' := c.kernel.setTask task fun t => { t with state := .exited, exitCode := exitCode }
    have htask : k'.tasks task = { c.kernel.tasks task with state := .exited, exitCode := exitCode } :=
      Kernel.setTask_self ..
    have hok := h.tasks task halive
    refine ⟨0, { c with kernel := k' }, ?_, h.task_step (Within.refl 0 ∅ h.tables) (fun t ht => Function.update_of_ne ht ..)
      (fun _ _ hz => hz) (fun _ _ _ _ => id) (fun _ => ?_), .exited hstate⟩
    · rw [exec, userTaskMarkExited, if_neg (by simp [hready])]
    · rw [htask]
      refine ⟨⟨hok.live, hok.satp, hok.frames, hok.present, hok.trampoline, hok.mapping⟩, fun o' ho he => ?_,
        fun a ha o' ho ha' => ?_⟩
      · have hz : c.root (.task task) ≠ 0 := by
          rw [root_task halive]
          exact h.tables.root_ne_zero hok.live
        exact ho (congrArg some (h.roots (.task task) o' hz ((root_task halive).trans he.symm)).symm)
      · exact ho (congrArg some (h.disjoint _ _ a ha' ((frames_task halive).symm ▸ ha)))
  · refine ⟨-1, c, ?_, Stepped.refl h _, .refused (by simpa using hready)⟩
    rw [exec, userTaskMarkExited, if_pos (by simpa using hready)]

inductive TaskDestroyOutcome (c : Clients) (place : TablePlaces) (task : U64) : Int → Clients → Prop
  | refused (hstate : task = 0 ∨ (c.kernel.tasks task).state ≠ .exited) : TaskDestroyOutcome c place task (-1) c
  | destroyed {c' : Clients} (hstate : (c.kernel.tasks task).state = .exited)
    (hstate' : (c'.kernel.tasks task).state = .destroyed)
    (hcode : (c'.kernel.tasks task).exitCode = (c.kernel.tasks task).exitCode) (hinit : userTaskCanInit task c'.kernel = true)
    (halloc : ∀ a, c'.kernel.machine.pages.Allocated a ↔
      c.kernel.machine.pages.Allocated a ∧ a ∉ c.owned place (.task task)) : TaskDestroyOutcome c place task 0 c'

theorem taskDestroy_step (h : c.Ok place) (task : U64) :
    ∃ result c' place', exec (.taskDestroy task) c = .ok (.status result, c') ∧
      Stepped (some (.task task)) c place c' place' ∧ TaskDestroyOutcome c place task result c' := by
  by_cases hguard : task = 0 ∨ (c.kernel.tasks task).state ≠ .exited
  · refine ⟨-1, c, place, ?_, Stepped.refl h _, .refused hguard⟩
    show (userTaskDestroy task c.kernel >>= _) = _
    rw [userTaskDestroy, if_pos hguard]
    rfl
  obtain ⟨hnull, hstate⟩ := not_or.mp hguard
  rw [not_not] at hstate
  have halive : c.Alive task := .inr hstate
  have hok := h.tasks task halive
  have hz : c.root (.task task) ≠ 0 := by
    rw [root_task halive]
    exact h.tables.root_ne_zero hok.live
  obtain ⟨m', place', hrun, hw, hgone, hfreed⟩ := userTaskReleaseResources_within h.tables hok.live
    (fun va hva => h.taskVa halive hva) hok.frames
  let k₁ : Kernel := { c.kernel with machine := m' }.setTask task UserTask.released
  let k' : Kernel := k₁.setTask task fun t => { t with state := .destroyed }
  have htask : k'.tasks task = { UserTask.released (c.kernel.tasks task) with state := .destroyed } := by
    rw [Kernel.setTask_self, Kernel.setTask_self]
  have hdead : ¬({ c with kernel := k' } : Clients).Alive task := by
    rintro (hs | hs) <;>
    · rw [show ({ c with kernel := k' } : Clients).kernel = k' from rfl, htask] at hs
      cases hs
  refine ⟨0, { c with kernel := k' }, place', ?_, h.task_step hw (fun t ht => ?_) (fun o' ho hz' he => ?_)
    (fun o' ho a ha ha' => ?_) (fun halive' => absurd halive' hdead), .destroyed hstate (by rw [htask]) (by rw [htask]; rfl) ?_ ?_⟩
  · show (userTaskDestroy task c.kernel >>= _) = _
    rw [userTaskDestroy, if_neg hguard, hrun]
    rfl
  · show Function.update _ task _ t = _
    rw [Function.update_of_ne ht]
    show Function.update _ task _ t = _
    rw [Function.update_of_ne ht]
  · exact ho (congrArg some (h.roots o' (.task task) hz' (he.trans (root_task halive).symm)))
  · exact ho (congrArg some (h.disjoint o' (.task task) a ha (by rw [frames_task halive]; exact ha')))
  · rw [userTaskCanInit, if_neg hnull, htask]
    rfl
  · intro a
    show m'.pages.Allocated a ↔ c.kernel.machine.pages.Allocated a ∧ ¬((∃ p, place a = some (c.root (.task task), p)) ∨
      a ∈ c.frames (.task task))
    rw [root_task halive, frames_task halive]
    by_cases hf : a ∈ (c.kernel.tasks task).frames
    · exact ⟨fun ha => absurd ha (hfreed a hf), fun ha => absurd (.inr hf) ha.2⟩
    · have := hw.allocated a hf
      constructor
      · intro ha
        obtain ⟨halloc, hp⟩ := this.mp ⟨ha, hgone a⟩
        exact ⟨halloc, not_or.mpr ⟨not_exists.mpr hp, hf⟩⟩
      · rintro ⟨ha, hno⟩
        exact (this.mpr ⟨ha, fun p hp => hno (.inl ⟨p, hp⟩)⟩).1

/-! ### Runs -/

/-- Every call that keeps the callers' promise returns, and concerns only its owner. -/
theorem exec_step (h : c.Ok place) {op : ClientOp} (hp : c.Permitted op) :
    ∃ out c' place', exec op c = .ok (out, c') ∧ Stepped (owner op) c place c' place' := by
  have hnone : c.NullSpace none := by rintro i ⟨⟩
  have same : ∀ {out}, exec op c = .ok (out, c) → ∃ out c' place', exec op c = .ok (out, c') ∧
      Stepped (owner op) c place c' place' := fun hrun => ⟨_, c, place, hrun, Stepped.refl h _⟩
  cases op with
  | spaceInit space =>
    cases space with
    | none => exact same rfl
    | some i =>
      obtain ⟨result, c', place', hrun, hs, -⟩ := spaceInit_step h i
      exact ⟨_, c', place', hrun, hs⟩
  | spaceDestroy space =>
    cases space with
    | none => exact same (spaceDestroy_null hnone)
    | some i =>
      by_cases hz : (c.spaces i).root = 0
      · exact same (spaceDestroy_null (.of_root hz))
      · obtain ⟨result, c', place', hrun, hs, -⟩ := spaceDestroy_step h hz
        exact ⟨_, c', place', hrun, hs⟩
  | mapPage space va pa flags =>
    cases space with
    | none => exact same (mapPage_null hnone va pa flags)
    | some i =>
      by_cases hz : (c.spaces i).root = 0
      · exact same (mapPage_null (.of_root hz) va pa flags)
      · obtain ⟨result, m', place', hrun, hs, -⟩ := mapPage_step h hz va pa flags
        exact ⟨_, _, place', hrun, hs⟩
  | unmapPage space va =>
    cases space with
    | none => exact same (unmapPage_null hnone va)
    | some i =>
      by_cases hz : (c.spaces i).root = 0
      · exact same (unmapPage_null (.of_root hz) va)
      · obtain ⟨result, m', hrun, hs, -⟩ := unmapPage_step h hz va
        exact ⟨_, _, place, hrun, hs⟩
  | translate space va =>
    cases space with
    | none => exact same (translate_null hnone va)
    | some i =>
      by_cases hz : (c.spaces i).root = 0
      · exact same (translate_null (.of_root hz) va)
      · exact same (translate_exec h hz va)
  | getMapping space va =>
    cases space with
    | none => exact same (getMapping_null hnone va)
    | some i =>
      by_cases hz : (c.spaces i).root = 0
      · exact same (getMapping_null (.of_root hz) va)
      · exact same (getMapping_exec h hz va)
  | pageAlloc =>
    obtain ⟨a, c', hrun, hs, -⟩ := pageAlloc_step h
    exact ⟨_, c', place, hrun, hs⟩
  | pageFree page =>
    obtain ⟨c', hrun, hs, -⟩ := pageFree_step h hp
    exact ⟨_, c', place, hrun, hs⟩
  | write mem =>
    obtain ⟨c', hrun, hs⟩ := write_step h hp
    exact ⟨_, c', place, hrun, hs⟩
  | taskInit task program =>
    obtain ⟨result, c', place', hrun, hs, -⟩ := taskInit_step h task program
    exact ⟨_, c', place', hrun, hs⟩
  | taskMarkExited task exitCode =>
    obtain ⟨result, c', hrun, hs, -⟩ := taskMarkExited_step h task exitCode
    exact ⟨_, c', place, hrun, hs⟩
  | taskDestroy task =>
    obtain ⟨result, c', place', hrun, hs, -⟩ := taskDestroy_step h task
    exact ⟨_, c', place', hrun, hs⟩

/-- The state after `page_init`, when no space and no task has been built yet. -/
def boot (k : Kernel) : Except Panic Clients := do
  let m ← pageInit k.machine.image.kernelEnd k.machine.image.ramEnd k.machine
  .ok { kernel := { k with machine := m }, spaces := fun _ => ⟨0⟩, held := fun _ => false }

/-- The reachable states: the invariant, and where the allocator's frames lie. -/
structure Reached (c : Clients) : Prop where
  ok : ∃ place, c.Ok place
  above : c.kernel.machine.image.kernelEnd.toNat ≤ c.kernel.machine.pages.managedStart.toNat
  below : c.kernel.machine.pages.managedEnd.toNat ≤ c.kernel.machine.image.ramEnd.toNat

theorem Reached.step (h : c.Reached) {op : ClientOp} (hp : c.Permitted op) {out : ClientOut} (hrun : exec op c = .ok (out, c')) :
    c'.Reached := by
  obtain ⟨place, hok⟩ := h.ok
  obtain ⟨out', c₁, place', hrun', hs⟩ := exec_step hok hp
  obtain ⟨-, rfl⟩ := Prod.mk.inj (Except.ok.inj (hrun.symm.trans hrun'))
  have hrange := hs.range
  simp only [PageAllocator.range, Prod.mk.injEq] at hrange
  refine ⟨⟨place', hs.ok⟩, ?_, ?_⟩
  · rw [hs.image, hrange.1]
    exact h.above
  · rw [hs.image, hrange.2.1]
    exact h.below

variable {k : Kernel} {c₀ : Clients} {l : List ClientOp}

theorem Ok.empty (hp : PagesOk c.kernel.machine.pages) (hspaces : ∀ i, (c.spaces i).root = 0) (hheld : ∀ a, c.held a = false)
    (hdead : ∀ task, ¬c.Alive task) : c.Ok fun _ => none := by
  have hroot : ∀ o, c.root o = 0 := by
    rintro (i | task | _)
    · exact hspaces i
    · exact (not_alive (hdead task)).1
    · rfl
  have hframes : ∀ o a, a ∉ c.frames o := by
    rintro (i | task | _) a ha
    · exact ha.elim
    · rw [(not_alive (hdead task)).2] at ha
      exact ha.elim
    · rw [show (a ∈ c.frames .clients) = (c.held a = true) from rfl, hheld a] at ha
      cases ha
  refine ⟨⟨hp, ⟨?_, ?_, ?_, ?_, ?_⟩, ?_⟩, fun o hz => absurd (hroot o) hz, fun o _ hz => absurd (hroot o) hz,
    fun o a ha => absurd ha (hframes o a), fun o _ a ha => absurd ha (hframes o a), fun task halive => absurd halive (hdead task)⟩
  all_goals
    intros
    contradiction

theorem boot_reached (hk : ∀ task, (k.tasks task).state = .unused) (hboot : boot k = .ok c₀) :
    c₀.Reached ∧ (∀ i, (c₀.spaces i).root = 0) ∧ (∀ a, c₀.held a = false) ∧ ∀ task, ¬c₀.Alive task := by
  obtain ⟨m, hm, hboot⟩ := bind_eq_ok.mp hboot
  obtain rfl := Except.ok.inj hboot
  obtain ⟨hle, hpos⟩ := kernelEnd_alignUp k.machine.image
  obtain ⟨p, rfl, hp, hfree, -, hstart, hend⟩ := pageInit_ok hm hpos
  have hdead : ∀ task, ¬Clients.Alive ⟨{ k with machine := { k.machine with pages := p } }, fun _ => ⟨0⟩, fun _ => false⟩ task := by
    rintro task (hs | hs) <;>
    · rw [show (k.tasks task).state = .unused from hk task] at hs
      cases hs
  refine ⟨⟨⟨_, Ok.empty hp (fun _ => rfl) (fun _ => rfl) hdead⟩, ?_, ?_⟩, fun _ => rfl, fun _ => rfl, hdead⟩
  · show k.machine.image.kernelEnd.toNat ≤ p.managedStart.toNat
    rw [hstart]
    exact hle
  · show p.managedEnd.toNat ≤ k.machine.image.ramEnd.toNat
    rw [hend, pageAlignDown_toNat]
    exact Nat.div_mul_le_self ..

theorem boot_image (hboot : boot k = .ok c₀) : c₀.kernel.machine.image = k.machine.image := by
  obtain ⟨m, hm, hboot⟩ := bind_eq_ok.mp hboot
  obtain rfl := Except.ok.inj hboot
  obtain ⟨p, rfl, -⟩ := pageInit_ok hm (kernelEnd_alignUp k.machine.image).2
  rfl

theorem next_ok {op : ClientOp} (h : next exec op c = .ok c') : ∃ out, exec op c = .ok (out, c') := by
  rw [next] at h
  cases hrun : exec op c with
  | error e =>
    rw [hrun] at h
    cases h
  | ok r =>
    rw [hrun] at h
    obtain rfl := Except.ok.inj h
    exact ⟨r.1, rfl⟩

theorem run_reached (hk : ∀ task, (k.tasks task).state = .unused) (hboot : boot k = .ok c₀)
    (hrun : Run (next exec) (fun op c => c.Permitted op) c₀ l c) : c.Reached := by
  refine hrun.invariant (fun op c c' h hp hs => ?_) (boot_reached hk hboot).1
  obtain ⟨out, hexec⟩ := next_ok hs
  exact h.step hp hexec

end Clients

end QemuRtos
