import QemuRtos.Drivers.Device
import QemuRtos.Safety.Progress

/-!
# The device registry

The registry over whole runs, for any resource table and any drivers: what is bound stays bound, to a driver of the
same `compatible` string, and an interrupt reaches the one bound device that has it. With the kernel's own tables
the registry does what the model of the accelerator driver does in one step.
-/

namespace QemuRtos

open Lib

/-! ### Strings -/

theorem stringEqualLoop_iff (as bs : List Char) : stringEqualLoop as bs = true ↔ as = bs := by
  induction as generalizing bs with
  | nil =>
    cases bs with
    | nil => simp [stringEqualLoop]
    | cons b bs => simp [stringEqualLoop]
  | cons a as ih =>
    cases bs with
    | nil => simp [stringEqualLoop]
    | cons b bs =>
      by_cases hab : a = b
      · simp [stringEqualLoop, hab, ih]
      · simp [stringEqualLoop, hab]

theorem stringEqual_iff (a b : Option String) : stringEqual a b = true ↔ ∃ s, a = some s ∧ b = some s := by
  cases a with
  | none => simp [stringEqual]
  | some a =>
    cases b with
    | none => simp [stringEqual]
    | some b =>
      simp only [stringEqual, stringEqualLoop_iff, Option.some.injEq, String.toList_inj]
      constructor
      · rintro rfl
        exact ⟨a, rfl, rfl⟩
      · rintro ⟨s, rfl, rfl⟩
        rfl

variable {S : Type} {table : ResourceTable} {drivers : List (Option (Driver S))} {r r' : Registry} {s s' : S}
  {ds ds' : List Device} {i : Nat} {irq : Int}

/-! ### Initialisation -/

/-- No two devices have the same interrupt. -/
def UniqueIrqs (ds : List Device) : Prop :=
  ds.Pairwise fun d e => d.resource.irq ≠ irqNone → e.resource.irq ≠ d.resource.irq

theorem deviceValidateUniqueIrqs_ok (h : deviceValidateUniqueIrqs ds = .ok ()) : UniqueIrqs ds := by
  induction ds with
  | nil => exact .nil
  | cons d ds ih =>
    rw [deviceValidateUniqueIrqs] at h
    by_cases hnone : d.resource.irq = irqNone
    · rw [if_pos hnone] at h
      exact .cons (fun e _ hne => absurd hnone hne) (ih h)
    · rw [if_neg hnone] at h
      by_cases hany : (ds.any fun e => e.resource.irq = d.resource.irq) = true
      · rw [if_pos hany] at h
        cases h
      · rw [if_neg hany] at h
        refine .cons (fun e he _ heq => hany ?_) (ih h)
        exact List.any_eq_true.mpr ⟨e, he, decide_eq_true heq⟩

theorem deviceLoad_ok {n : Nat} (h : deviceLoad table i n = .ok ds) :
    (List.range' i n).map table.resourceAt = ds.map (fun d => some d.resource) ∧ ∀ d ∈ ds, d.driver = none := by
  induction n generalizing i ds with
  | zero =>
    obtain rfl := Except.ok.inj h
    exact ⟨rfl, fun d hd => absurd hd List.not_mem_nil⟩
  | succ n ih =>
    rw [deviceLoad] at h
    cases hat : table.resourceAt i with
    | none =>
      rw [hat] at h
      cases h
    | some resource =>
      rw [hat] at h
      obtain ⟨rest, hrest, h⟩ := bind_eq_ok.mp h
      obtain rfl := Except.ok.inj h
      obtain ⟨hmap, hnone⟩ := ih hrest
      refine ⟨?_, fun d hd => ?_⟩
      · rw [List.range'_succ, List.map_cons, List.map_cons, hmap, hat]
      · rcases List.mem_cons.mp hd with rfl | hd
        · rfl
        · exact hnone d hd

/-- The driver at index `i` has a probe and the `compatible` string of the device. -/
def DriverFits (drivers : List (Option (Driver S))) (i : Nat) (d : DeviceResource) : Prop :=
  ∃ driver, drivers[i]? = some (some driver) ∧ driver.probe.isSome = true ∧
    ∃ c, d.compatible = some c ∧ driver.compatible = some c

/-- The number of bound devices. -/
def boundDevices (ds : List Device) : Nat := ds.countP fun d => d.driver.isSome

/-- What holds of the registry in every reachable state. -/
structure RegistryOk (table : ResourceTable) (drivers : List (Option (Driver S))) (r : Registry) : Prop where
  /-- The devices are those of the resource table, in its order. -/
  resources : r.initialized = true → (List.range table.count).map table.resourceAt = r.devices.map fun d => some d.resource
  empty : r.initialized = false → r.devices = []
  fits : r.devices.length ≤ deviceMax
  irqs : UniqueIrqs r.devices
  bound : ∀ d ∈ r.devices, ∀ i, d.driver = some i → DriverFits drivers i d.resource

/-- A device keeps its resource, and its driver once it has one. -/
def DeviceKept (d d' : Device) : Prop := d'.resource = d.resource ∧ (d.driver.isSome = true → d' = d)

/-- What later states keep of the registry. -/
structure RegistryKept (r r' : Registry) : Prop where
  initialized : r.initialized = true → r'.initialized = true
  devices : r.initialized = true → List.Forall₂ DeviceKept r.devices r'.devices

theorem DeviceKept.refl (d : Device) : DeviceKept d d := ⟨rfl, fun _ => rfl⟩

theorem DeviceKept.trans {d d' d'' : Device} (h : DeviceKept d d') (h' : DeviceKept d' d'') : DeviceKept d d'' := by
  refine ⟨h'.1.trans h.1, fun hb => ?_⟩
  have hd := h.2 hb
  rw [← hd] at hb
  exact (h'.2 hb).trans hd

theorem forall₂_kept_refl (ds : List Device) : List.Forall₂ DeviceKept ds ds := by
  induction ds with
  | nil => exact .nil
  | cons d ds ih => exact .cons (.refl d) ih

theorem forall₂_kept_trans {ds₁ ds₂ ds₃ : List Device} (h : List.Forall₂ DeviceKept ds₁ ds₂)
    (h' : List.Forall₂ DeviceKept ds₂ ds₃) : List.Forall₂ DeviceKept ds₁ ds₃ := by
  induction h generalizing ds₃ with
  | nil => exact h'
  | cons hd _ ih =>
    cases h' with
    | cons hd' ht' => exact .cons (hd.trans hd') (ih ht')

theorem RegistryKept.refl (r : Registry) : RegistryKept r r := ⟨fun h => h, fun _ => forall₂_kept_refl _⟩

theorem RegistryKept.trans {r₁ r₂ r₃ : Registry} (h : RegistryKept r₁ r₂) (h' : RegistryKept r₂ r₃) :
    RegistryKept r₁ r₃ :=
  ⟨fun hi => h'.initialized (h.initialized hi),
    fun hi => forall₂_kept_trans (h.devices hi) (h'.devices (h.initialized hi))⟩

theorem registryOk_empty : RegistryOk table drivers .empty := by
  refine ⟨fun h => ?_, fun _ => rfl, Nat.zero_le _, .nil, fun d hd => absurd hd List.not_mem_nil⟩
  cases h

theorem deviceInit_ok (h : RegistryOk table drivers r) (hx : deviceInit table r = .ok r') :
    RegistryOk table drivers r' ∧ RegistryKept r r' ∧ r'.initialized = true ∧ (r.initialized = true → r' = r) ∧
      boundDevices r'.devices = boundDevices r.devices := by
  rw [deviceInit] at hx
  by_cases hinit : r.initialized = true
  · rw [if_pos hinit] at hx
    obtain rfl := Except.ok.inj hx
    exact ⟨h, .refl r, hinit, fun _ => rfl, rfl⟩
  rw [if_neg hinit] at hx
  by_cases hmany : table.count > deviceMax
  · rw [if_pos hmany] at hx
    cases hx
  rw [if_neg hmany] at hx
  obtain ⟨ds, hload, hx⟩ := bind_eq_ok.mp hx
  obtain ⟨u, hunique, hx⟩ := bind_eq_ok.mp hx
  obtain rfl := Except.ok.inj hx
  obtain ⟨hmap, hnone⟩ := deviceLoad_ok hload
  have hlen : ds.length = table.count := by
    have := congrArg List.length hmap
    simpa using this.symm
  refine ⟨⟨fun _ => ?_, fun hf => ?_, ?_, deviceValidateUniqueIrqs_ok hunique, fun d hd i hi => ?_⟩,
    ⟨fun hi => absurd hi hinit, fun hi => absurd hi hinit⟩, rfl, fun hi => absurd hi hinit, ?_⟩
  · rw [List.range_eq_range']
    exact hmap
  · cases hf
  · show ds.length ≤ deviceMax
    omega
  · rw [hnone d hd] at hi
    cases hi
  · rw [h.empty (Bool.not_eq_true _ ▸ hinit)]
    refine List.countP_eq_zero.mpr fun d hd hb => ?_
    rw [hnone d hd] at hb
    cases hb

/-! ### Probing -/

/-- A device before and after some drivers have been tried: it may have been bound to one that fits. -/
def DeviceProbed (drivers : List (Option (Driver S))) (d d' : Device) : Prop :=
  d'.resource = d.resource ∧ (d' = d ∨ d.driver = none ∧ ∃ i, d'.driver = some i ∧ DriverFits drivers i d.resource)

theorem DeviceProbed.kept {d d' : Device} (h : DeviceProbed drivers d d') : DeviceKept d d' := by
  refine ⟨h.1, fun hb => h.2.resolve_right fun hn => ?_⟩
  rw [hn.1] at hb
  cases hb

theorem probeDevices_ok {compatible : String} {probe : DeviceResource → S → Except Panic (Int × S)} {bound failed : Nat}
    (h : probeDevices i (some compatible) probe ds s = .ok (ds', s', bound, failed)) :
    List.Forall₂ (fun d d' => d'.resource = d.resource ∧
      (d' = d ∨ d.driver = none ∧ d'.driver = some i ∧ d.resource.compatible = some compatible)) ds ds' ∧
      boundDevices ds' = boundDevices ds + bound := by
  induction ds generalizing ds' s s' bound failed with
  | nil =>
    obtain ⟨rfl, -, rfl, -⟩ : [] = ds' ∧ s = s' ∧ 0 = bound ∧ 0 = failed := by simpa [probeDevices] using h
    exact ⟨.nil, rfl⟩
  | cons d ds ih =>
    rw [probeDevices] at h
    by_cases hskip : d.driver.isSome = true ∨ (!stringEqual d.resource.compatible (some compatible)) = true
    · rw [if_pos hskip] at h
      obtain ⟨⟨rest, s₁, b, f⟩, hrest, h⟩ := bind_eq_ok.mp h
      obtain ⟨rfl, -, rfl, -⟩ : d :: rest = ds' ∧ s₁ = s' ∧ b = bound ∧ f = failed := by simpa using h
      obtain ⟨hall, hcount⟩ := ih hrest
      refine ⟨.cons ⟨rfl, .inl rfl⟩ hall, ?_⟩
      simp only [boundDevices, List.countP_cons] at hcount ⊢
      omega
    rw [if_neg hskip] at h
    obtain ⟨hfree, hmatch⟩ := not_or.mp hskip
    have hnone : d.driver = none := Option.not_isSome_iff_eq_none.mp hfree
    have hcompatible : d.resource.compatible = some compatible := by
      have heq : stringEqual d.resource.compatible (some compatible) = true := by simpa using hmatch
      obtain ⟨c, hc, hc'⟩ := (stringEqual_iff _ _).mp heq
      rw [hc, ← Option.some.inj hc']
    obtain ⟨⟨result, s₁⟩, -, h⟩ := bind_eq_ok.mp h
    obtain ⟨⟨rest, s₂, b, f⟩, hrest, h⟩ := bind_eq_ok.mp h
    obtain ⟨hall, hcount⟩ := ih hrest
    simp only [boundDevices] at hcount
    dsimp only at h
    by_cases hzero : result = 0
    · rw [if_pos hzero] at h
      obtain ⟨rfl, -, rfl, -⟩ : { d with driver := some i } :: rest = ds' ∧ s₂ = s' ∧ b + 1 = bound ∧ f = failed := by
        simpa using h
      refine ⟨.cons ⟨rfl, .inr ⟨hnone, rfl, hcompatible⟩⟩ hall, ?_⟩
      simp only [boundDevices, List.countP_cons, hnone, hcount]
      simp
      omega
    · rw [if_neg hzero] at h
      obtain ⟨rfl, -, rfl, -⟩ : d :: rest = ds' ∧ s₂ = s' ∧ b = bound ∧ f + 1 = failed := by simpa using h
      refine ⟨.cons ⟨rfl, .inl rfl⟩ hall, ?_⟩
      simp only [boundDevices, List.countP_cons] at hcount ⊢
      omega

theorem DeviceProbed.trans {d d' d'' : Device} (h : DeviceProbed drivers d d') (h' : DeviceProbed drivers d' d'') :
    DeviceProbed drivers d d'' := by
  refine ⟨h'.1.trans h.1, ?_⟩
  rcases h.2 with rfl | ⟨hnone, i, hi, hfits⟩
  · exact h'.2
  · rcases h'.2 with rfl | ⟨hnone', -⟩
    · exact .inr ⟨hnone, i, hi, hfits⟩
    · rw [hi] at hnone'
      cases hnone'

theorem forall₂_probed_refl (ds : List Device) : List.Forall₂ (DeviceProbed drivers) ds ds := by
  induction ds with
  | nil => exact .nil
  | cons d ds ih => exact .cons ⟨rfl, .inl rfl⟩ ih

theorem forall₂_probed_trans {ds₁ ds₂ ds₃ : List Device} (h : List.Forall₂ (DeviceProbed drivers) ds₁ ds₂)
    (h' : List.Forall₂ (DeviceProbed drivers) ds₂ ds₃) : List.Forall₂ (DeviceProbed drivers) ds₁ ds₃ := by
  induction h generalizing ds₃ with
  | nil => exact h'
  | cons hd _ ih =>
    cases h' with
    | cons hd' ht' => exact .cons (hd.trans hd') (ih ht')

theorem probeDrivers_ok {rest : List (Option (Driver S))} {bound failed : Nat} (hrest : ∀ j, rest[j]? = drivers[i + j]?)
    (h : probeDrivers i rest ds s = .ok (ds', s', bound, failed)) :
    List.Forall₂ (DeviceProbed drivers) ds ds' ∧ boundDevices ds' = boundDevices ds + bound := by
  induction rest generalizing i ds ds' s s' bound failed with
  | nil =>
    obtain ⟨rfl, -, rfl, -⟩ : ds = ds' ∧ s = s' ∧ 0 = bound ∧ 0 = failed := by simpa [probeDrivers] using h
    exact ⟨forall₂_probed_refl ds, rfl⟩
  | cons entry rest ih =>
    have htail : ∀ j, rest[j]? = drivers[i + 1 + j]? := by
      intro j
      have hj := hrest (j + 1)
      rw [List.getElem?_cons_succ] at hj
      rw [hj]
      congr 1
      omega
    -- an entry that cannot be used only counts as failed
    have hskip : ∀ {b f : Nat} {ds₁ : List Device} {s₁ : S}, probeDrivers (i + 1) rest ds s = .ok (ds₁, s₁, b, f) →
        (ds₁, s₁, b, f + 1) = (ds', s', bound, failed) →
        List.Forall₂ (DeviceProbed drivers) ds ds' ∧ boundDevices ds' = boundDevices ds + bound := by
      intro b f ds₁ s₁ h₁ heq
      obtain ⟨rfl, rfl, rfl, rfl⟩ : ds₁ = ds' ∧ s₁ = s' ∧ b = bound ∧ f + 1 = failed := by simpa using heq
      exact ih htail h₁
    cases entry with
    | none =>
      obtain ⟨⟨ds₁, s₁, b, f⟩, h₁, h⟩ := bind_eq_ok.mp h
      exact hskip h₁ (Except.ok.inj h)
    | some driver =>
      rw [probeDrivers] at h
      cases hc : driver.compatible with
      | none =>
        rw [hc] at h
        obtain ⟨⟨ds₁, s₁, b, f⟩, h₁, h⟩ := bind_eq_ok.mp h
        exact hskip h₁ (Except.ok.inj h)
      | some compatible =>
        cases hp : driver.probe with
        | none =>
          rw [hc, hp] at h
          obtain ⟨⟨ds₁, s₁, b, f⟩, h₁, h⟩ := bind_eq_ok.mp h
          exact hskip h₁ (Except.ok.inj h)
        | some probe =>
          rw [hc, hp] at h
          obtain ⟨⟨ds₁, s₁, b₁, f₁⟩, h₁, h⟩ := bind_eq_ok.mp h
          obtain ⟨⟨ds₂, s₂, b₂, f₂⟩, h₂, h⟩ := bind_eq_ok.mp h
          obtain ⟨rfl, -, rfl, -⟩ : ds₂ = ds' ∧ s₂ = s' ∧ b₁ + b₂ = bound ∧ f₁ + f₂ = failed := by simpa using h
          obtain ⟨hall₁, hcount₁⟩ := probeDevices_ok h₁
          obtain ⟨hall₂, hcount₂⟩ := ih htail h₂
          have hfits : ∀ {d : DeviceResource}, d.compatible = some compatible → DriverFits drivers i d := by
            intro d hd
            refine ⟨driver, ?_, by rw [hp]; rfl, compatible, hd, hc⟩
            have h₀ := hrest 0
            rw [List.getElem?_cons_zero, Nat.add_zero] at h₀
            exact h₀.symm
          have hprobed : List.Forall₂ (DeviceProbed drivers) ds ds₁ := hall₁.imp fun d d' hd =>
            ⟨hd.1, hd.2.imp_right fun hb => ⟨hb.1, i, hb.2.1, hfits hb.2.2⟩⟩
          exact ⟨forall₂_probed_trans hprobed hall₂, by omega⟩

theorem forall₂_mem_right {α β : Type} {R : α → β → Prop} {l : List α} {l' : List β} (h : List.Forall₂ R l l') {b : β}
    (hb : b ∈ l') : ∃ a ∈ l, R a b := by
  induction h with
  | nil => cases hb
  | @cons a b' l l' hab _ ih =>
    rcases List.mem_cons.mp hb with rfl | hb
    · exact ⟨a, List.mem_cons_self, hab⟩
    · obtain ⟨a', ha', hr⟩ := ih hb
      exact ⟨a', List.mem_cons_of_mem a ha', hr⟩

theorem probed_resources (h : List.Forall₂ (DeviceProbed drivers) ds ds') :
    ds'.map (fun d => some d.resource) = ds.map fun d => some d.resource := by
  induction h with
  | nil => rfl
  | cons hd _ ih => rw [List.map_cons, List.map_cons, hd.1, ih]

theorem uniqueIrqs_probed (h : UniqueIrqs ds) (hp : List.Forall₂ (DeviceProbed drivers) ds ds') : UniqueIrqs ds' := by
  induction hp with
  | nil => exact .nil
  | @cons d d' ds ds' hd hds ih =>
    obtain ⟨hhead, htail⟩ := List.pairwise_cons.mp h
    refine .cons (fun e' he' => ?_) (ih htail)
    obtain ⟨e, he, hprobed⟩ := forall₂_mem_right hds he'
    rw [hd.1, hprobed.1]
    exact hhead e he

theorem registryProbeAll_ok {result : DriverProbeResult} (h : RegistryOk table drivers r)
    (hx : registryProbeAll table drivers r s = .ok (result, r', s')) :
    RegistryOk table drivers r' ∧ RegistryKept r r' ∧ r'.initialized = true ∧
      result.deviceCount = r'.devices.length ∧ result.driverCount = drivers.length ∧
      boundDevices r'.devices = boundDevices r.devices + result.boundCount := by
  obtain ⟨r₁, hinit, hx⟩ := bind_eq_ok.mp hx
  obtain ⟨⟨ds', s₁, bound, failed⟩, hprobe, hx⟩ := bind_eq_ok.mp hx
  obtain ⟨hok, hkept, hst, -, hbound⟩ := deviceInit_ok h hinit
  obtain ⟨rfl, rfl, rfl⟩ : _ = result ∧ { r₁ with devices := ds' } = r' ∧ s₁ = s' := by simpa using hx
  obtain ⟨hall, hcount⟩ := probeDrivers_ok (fun j => by rw [Nat.zero_add]) hprobe
  have hlen := hall.length_eq
  have hkept' : RegistryKept r₁ { r₁ with devices := ds' } :=
    ⟨fun hi => hi, fun _ => hall.imp fun d d' hd => hd.kept⟩
  refine ⟨⟨fun _ => ?_, fun hf => ?_, ?_, uniqueIrqs_probed hok.irqs hall, fun d hd i hi => ?_⟩,
    hkept.trans hkept', hst, hlen, rfl, by rw [hcount, hbound]⟩
  · rw [hok.resources hst]
    exact (probed_resources hall).symm
  · rw [hst] at hf
    cases hf
  · show ds'.length ≤ deviceMax
    rw [← hlen]
    exact hok.fits
  · obtain ⟨e, he, hresource, hsame | ⟨-, j, hj, hfits⟩⟩ := forall₂_mem_right hall hd
    · subst hsame
      exact hok.bound d he i hi
    · obtain rfl : j = i := Option.some.inj (hj.symm.trans hi)
      rw [hresource]
      exact hfits

/-! ### Runs -/

/-- The calls of the registry, and a step of other code, which may change the state of the drivers. -/
inductive RegistryOp (S : Type)
  | init
  | probeAll
  | findByName (name : Option String)
  | findByCompatible (compatible : Option String)
  | dispatch (irq : Int)
  | other (s : S)

def registryStep (table : ResourceTable) (drivers : List (Option (Driver S))) (op : RegistryOp S) (x : Registry × S) :
    Except Panic (Registry × S) :=
  match op with
  | .init => do
    let r ← deviceInit table x.1
    .ok (r, x.2)
  | .probeAll => do
    let (_, r, s) ← registryProbeAll table drivers x.1 x.2
    .ok (r, s)
  | .findByName name => do
    let (_, r) ← deviceFindByName table name x.1
    .ok (r, x.2)
  | .findByCompatible compatible => do
    let (_, r) ← deviceFindByCompatible table compatible x.1
    .ok (r, x.2)
  | .dispatch irq => do
    let (_, r, s) ← deviceDispatchIrq table drivers irq x.1 x.2
    .ok (r, s)
  | .other s => .ok (x.1, s)

abbrev RegistryRuns (table : ResourceTable) (drivers : List (Option (Driver S))) :
    Registry × S → List (RegistryOp S) → Registry × S → Prop :=
  Run (registryStep table drivers) fun _ _ => True

theorem deviceDispatchIrq_ok {found : Bool} (h : RegistryOk table drivers r)
    (hx : deviceDispatchIrq table drivers irq r s = .ok (found, r', s')) :
    RegistryOk table drivers r' ∧ RegistryKept r r' := by
  rw [deviceDispatchIrq] at hx
  by_cases hnone : irq = irqNone
  · rw [if_pos hnone] at hx
    obtain ⟨-, rfl, -⟩ : false = found ∧ r = r' ∧ s = s' := by simpa using hx
    exact ⟨h, .refl r⟩
  rw [if_neg hnone] at hx
  obtain ⟨r₁, hinit, hx⟩ := bind_eq_ok.mp hx
  obtain ⟨⟨b, s₁⟩, -, hx⟩ := bind_eq_ok.mp hx
  obtain ⟨-, rfl, -⟩ : b = found ∧ r₁ = r' ∧ s₁ = s' := by simpa using hx
  obtain ⟨hok, hkept, -⟩ := deviceInit_ok h hinit
  exact ⟨hok, hkept⟩

theorem registryStep_ok {op : RegistryOp S} {x y : Registry × S} (h : RegistryOk table drivers x.1)
    (hx : registryStep table drivers op x = .ok y) : RegistryOk table drivers y.1 ∧ RegistryKept x.1 y.1 := by
  cases op with
  | init =>
    obtain ⟨r₁, hinit, hx⟩ := bind_eq_ok.mp hx
    obtain rfl := Except.ok.inj hx
    obtain ⟨hok, hkept, -⟩ := deviceInit_ok h hinit
    exact ⟨hok, hkept⟩
  | probeAll =>
    obtain ⟨⟨result, r₁, s₁⟩, hprobe, hx⟩ := bind_eq_ok.mp hx
    obtain rfl := Except.ok.inj hx
    obtain ⟨hok, hkept, -⟩ := registryProbeAll_ok h hprobe
    exact ⟨hok, hkept⟩
  | findByName name =>
    obtain ⟨⟨dev, r₁⟩, hfind, hx⟩ := bind_eq_ok.mp hx
    obtain rfl := Except.ok.inj hx
    obtain ⟨r₂, hinit, hfind⟩ := bind_eq_ok.mp hfind
    obtain ⟨-, rfl⟩ := Prod.mk.inj (Except.ok.inj hfind)
    obtain ⟨hok, hkept, -⟩ := deviceInit_ok h hinit
    exact ⟨hok, hkept⟩
  | findByCompatible compatible =>
    obtain ⟨⟨dev, r₁⟩, hfind, hx⟩ := bind_eq_ok.mp hx
    obtain rfl := Except.ok.inj hx
    obtain ⟨r₂, hinit, hfind⟩ := bind_eq_ok.mp hfind
    obtain ⟨-, rfl⟩ := Prod.mk.inj (Except.ok.inj hfind)
    obtain ⟨hok, hkept, -⟩ := deviceInit_ok h hinit
    exact ⟨hok, hkept⟩
  | dispatch irq =>
    obtain ⟨⟨found, r₁, s₁⟩, hdispatch, hx⟩ := bind_eq_ok.mp hx
    obtain rfl := Except.ok.inj hx
    exact deviceDispatchIrq_ok h hdispatch
  | other s =>
    obtain rfl := Except.ok.inj hx
    exact ⟨h, .refl _⟩

theorem registryRuns_ok {x y : Registry × S} {l : List (RegistryOp S)} (hrun : RegistryRuns table drivers x l y)
    (h : RegistryOk table drivers x.1) : RegistryOk table drivers y.1 ∧ RegistryKept x.1 y.1 := by
  induction hrun with
  | nil x => exact ⟨h, .refl _⟩
  | cons _ hx _ ih =>
    obtain ⟨hok, hkept⟩ := registryStep_ok h hx
    obtain ⟨hok', hkept'⟩ := ih hok
    exact ⟨hok', hkept.trans hkept'⟩

/-! ### The kernel's own tables -/

/-- The registry after `device_init`, with the accelerator bound or not. -/
def registryOf (mmio : U64) (bound : Bool) : Registry where
  devices := [{ resource := accelResource mmio, driver := if bound then some 0 else none }]
  initialized := true

theorem sampleRegistryRun : ∃ s, RegistryRuns (platformResources 0x80020000) builtInDrivers (.empty, sampleKernel)
    [.probeAll] (registryOf 0x80020000 true, s) := by
  obtain ⟨⟨r, s⟩, hrun, hp⟩ : ∃ x, RegistryRuns (platformResources 0x80020000) builtInDrivers (.empty, sampleKernel)
      [.probeAll] x ∧ decide (x.1 = registryOf 0x80020000 true) = true :=
    run_of_checkRun (p := fun x : Registry × Kernel => decide (x.1 = registryOf 0x80020000 true)) (by decide +kernel)
  obtain rfl : r = registryOf 0x80020000 true := of_decide_eq_true hp
  exact ⟨s, hrun⟩

/-! ### What is bound -/

/-- In every reachable state the registry holds the devices of the resource table, with pairwise distinct interrupts,
each bound to a driver of its `compatible` string at most; what is bound stays bound, whatever is called. -/
theorem registry_binding {s₀ : S} {l l' : List (RegistryOp S)}
    (hrun : RegistryRuns table drivers (.empty, s₀) l (r, s)) (hrun' : RegistryRuns table drivers (r, s) l' (r', s')) :
    RegistryOk table drivers r ∧ RegistryKept r r' := by
  obtain ⟨hok, -⟩ := registryRuns_ok hrun registryOk_empty
  exact ⟨hok, (registryRuns_ok hrun' hok).2⟩

theorem registry_binding_sample : ∃ s s', RegistryOk (platformResources 0x80020000) builtInDrivers
    (registryOf 0x80020000 true) ∧ RegistryRuns (platformResources 0x80020000) builtInDrivers
      (registryOf 0x80020000 true, s) [.other s'] (registryOf 0x80020000 true, s') := by
  obtain ⟨s, hrun⟩ := sampleRegistryRun
  have hother : RegistryRuns (platformResources 0x80020000) builtInDrivers (registryOf 0x80020000 true, s)
      [.other sampleKernel] (registryOf 0x80020000 true, sampleKernel) := .single trivial rfl
  exact ⟨s, sampleKernel, (registry_binding hrun hother).1, hother⟩

/-! ### Interrupts -/

theorem dispatchDevices_pass (h : ∀ d ∈ ds, d.resource.irq = irq → d.handler drivers = none) :
    dispatchDevices drivers irq ds s = .ok (false, s) := by
  induction ds with
  | nil => rfl
  | cons d ds ih =>
    have hrest := ih fun e he => h e (List.mem_cons_of_mem d he)
    rw [dispatchDevices]
    by_cases hirq : d.resource.irq = irq
    · rw [if_neg (not_not_intro hirq), h d List.mem_cons_self hirq]
      exact hrest
    · rw [if_pos hirq]
      exact hrest

theorem dispatchDevices_found {d : Device} {handler : DeviceResource → S → Except Panic S} (hu : UniqueIrqs ds)
    (hnone : irq ≠ irqNone) (hd : d ∈ ds) (hirq : d.resource.irq = irq) (hh : d.handler drivers = some handler) :
    dispatchDevices drivers irq ds s = (handler d.resource s >>= fun s' => .ok (true, s')) ∧
      ∀ e ∈ ds, e.resource.irq = irq → e = d := by
  induction ds with
  | nil => cases hd
  | cons e ds ih =>
    obtain ⟨hhead, htail⟩ := List.pairwise_cons.mp hu
    rw [dispatchDevices]
    by_cases heq : e.resource.irq = irq
    · have hlater : ∀ e' ∈ ds, e'.resource.irq ≠ irq := fun e' he' => by
        rw [← heq]
        exact hhead e' he' (by rw [heq]; exact hnone)
      obtain rfl : d = e := (List.mem_cons.mp hd).resolve_right fun hmem => hlater d hmem hirq
      rw [if_neg (not_not_intro heq), hh]
      refine ⟨rfl, fun e' he' hirq' => ?_⟩
      exact (List.mem_cons.mp he').resolve_right fun hmem => hlater e' hmem hirq'
    · have hmem : d ∈ ds := (List.mem_cons.mp hd).resolve_left fun hde => heq (hde ▸ hirq)
      obtain ⟨hrun, honly⟩ := ih htail hmem
      rw [if_pos heq]
      refine ⟨hrun, fun e' he' hirq' => ?_⟩
      rcases List.mem_cons.mp he' with rfl | hin
      · exact absurd hirq' heq
      · exact honly e' hin hirq'

/-- In every reachable state, an interrupt reaches the handler of the one device that has it, if that device is bound
to a driver with a handler, and is reported as not handled, with nothing changed, otherwise. -/
theorem registry_dispatch {s₀ : S} {l : List (RegistryOp S)} (hrun : RegistryRuns table drivers (.empty, s₀) l (r, s))
    (hinit : r.initialized = true) (irq : Int) :
    (∃ d handler, irq ≠ irqNone ∧ d ∈ r.devices ∧ d.resource.irq = irq ∧ d.handler drivers = some handler ∧
      (∀ e ∈ r.devices, e.resource.irq = irq → e = d) ∧
      deviceDispatchIrq table drivers irq r s = (handler d.resource s >>= fun s' => .ok (true, r, s'))) ∨
    (irq = irqNone ∨ ∀ d ∈ r.devices, d.resource.irq = irq → d.handler drivers = none) ∧
      deviceDispatchIrq table drivers irq r s = .ok (false, r, s) := by
  obtain ⟨hok, -⟩ := registryRuns_ok hrun registryOk_empty
  rw [deviceDispatchIrq]
  by_cases hnone : irq = irqNone
  · rw [if_pos hnone]
    exact .inr ⟨.inl hnone, rfl⟩
  rw [if_neg hnone, deviceInit, if_pos hinit, ok_bind]
  by_cases hany : ∃ d ∈ r.devices, d.resource.irq = irq ∧ d.handler drivers ≠ none
  · obtain ⟨d, hd, hirq, hsome⟩ := hany
    obtain ⟨handler, hh⟩ := Option.ne_none_iff_exists'.mp hsome
    obtain ⟨heq, honly⟩ := dispatchDevices_found (s := s) hok.irqs hnone hd hirq hh
    refine .inl ⟨d, handler, hnone, hd, hirq, hh, honly, ?_⟩
    rw [heq]
    cases handler d.resource s with
    | error e => rfl
    | ok s' => rfl
  · have hpass : ∀ d ∈ r.devices, d.resource.irq = irq → d.handler drivers = none := fun d hd hirq => by
      by_contra hne
      exact hany ⟨d, hd, hirq, hne⟩
    rw [dispatchDevices_pass hpass]
    exact .inr ⟨.inr hpass, rfl⟩

/-- The accelerator's interrupt in the kernel's registry. -/
theorem registry_dispatch_sample : ∃ d ∈ (registryOf 0x80020000 true).devices, d.resource.irq = accelDeviceIrq ∧
    ∀ e ∈ (registryOf 0x80020000 true).devices, e.resource.irq = accelDeviceIrq → e = d := by
  obtain ⟨s, hrun⟩ := sampleRegistryRun
  rcases registry_dispatch hrun rfl accelDeviceIrq with ⟨d, handler, -, hd, hirq, -, honly, -⟩ | ⟨hnone | hnone, -⟩
  · exact ⟨d, hd, hirq, honly⟩
  · exact absurd hnone (by decide)
  · exact absurd (hnone _ List.mem_cons_self rfl) (Option.some_ne_none _)

/-! ### Probing again -/

/-- The built-in driver can be tried. -/
def DriverUsable (entry : Option (Driver S)) : Bool :=
  entry.any fun driver => driver.compatible.isSome && driver.probe.isSome

/-- The entries of the driver table that only count as failed. -/
def unusableDrivers (drivers : List (Option (Driver S))) : Nat := drivers.countP fun entry => !DriverUsable entry

/-- No device is left that a driver could be bound to. -/
def Settled (drivers : List (Option (Driver S))) (ds : List Device) : Prop :=
  ∀ d ∈ ds, d.driver = none → ∀ driver, some driver ∈ drivers → driver.probe ≠ none →
    ∀ c, driver.compatible = some c → d.resource.compatible ≠ some c

theorem stringEqual_ne {a : Option String} {c : String} (h : a ≠ some c) : stringEqual a (some c) = false := by
  refine Bool.not_eq_true _ ▸ fun heq => ?_
  obtain ⟨s, ha, hc⟩ := (stringEqual_iff _ _).mp heq
  exact h (ha.trans hc.symm)

theorem probeDevices_settled {c : String} {probe : DeviceResource → S → Except Panic (Int × S)}
    (h : ∀ d ∈ ds, d.driver = none → d.resource.compatible ≠ some c) :
    probeDevices i (some c) probe ds s = .ok (ds, s, 0, 0) := by
  induction ds with
  | nil => rfl
  | cons d ds ih =>
    have hskip : d.driver.isSome = true ∨ (!stringEqual d.resource.compatible (some c)) = true := by
      cases hd : d.driver with
      | some j => exact .inl rfl
      | none =>
        refine .inr ?_
        rw [stringEqual_ne (h d List.mem_cons_self hd)]
        rfl
    rw [probeDevices, if_pos hskip, ih fun e he => h e (List.mem_cons_of_mem d he)]
    rfl

theorem probeDevices_complete {c : String} {probe : DeviceResource → S → Except Panic (Int × S)} {bound : Nat}
    (h : probeDevices i (some c) probe ds s = .ok (ds', s', bound, 0)) :
    ∀ d ∈ ds', d.driver = none → d.resource.compatible ≠ some c := by
  induction ds generalizing ds' s s' bound with
  | nil =>
    obtain ⟨rfl, -⟩ : [] = ds' ∧ s = s' ∧ 0 = bound ∧ True := by simpa [probeDevices] using h
    exact fun d hd => absurd hd List.not_mem_nil
  | cons d ds ih =>
    rw [probeDevices] at h
    by_cases hskip : d.driver.isSome = true ∨ (!stringEqual d.resource.compatible (some c)) = true
    · rw [if_pos hskip] at h
      obtain ⟨⟨rest, s₁, b, f⟩, hrest, h⟩ := bind_eq_ok.mp h
      obtain ⟨rfl, -, -, rfl⟩ : d :: rest = ds' ∧ s₁ = s' ∧ b = bound ∧ f = 0 := by simpa using h
      intro e he hnone heq
      rcases List.mem_cons.mp he with rfl | he
      · rcases hskip with hb | hne
        · rw [hnone] at hb
          cases hb
        · rw [(stringEqual_iff _ _).mpr ⟨c, heq, rfl⟩] at hne
          cases hne
      · exact ih hrest e he hnone heq
    rw [if_neg hskip] at h
    obtain ⟨⟨result, s₁⟩, -, h⟩ := bind_eq_ok.mp h
    obtain ⟨⟨rest, s₂, b, f⟩, hrest, h⟩ := bind_eq_ok.mp h
    dsimp only at h
    by_cases hzero : result = 0
    · rw [if_pos hzero] at h
      obtain ⟨rfl, -, -, rfl⟩ : { d with driver := some i } :: rest = ds' ∧ s₂ = s' ∧ b + 1 = bound ∧ f = 0 := by
        simpa using h
      intro e he hnone
      rcases List.mem_cons.mp he with rfl | he
      · cases hnone
      · exact ih hrest e he hnone
    · rw [if_neg hzero] at h
      simp at h

theorem unusableDrivers_cons (entry : Option (Driver S)) (rest : List (Option (Driver S))) :
    unusableDrivers (entry :: rest) = unusableDrivers rest + if DriverUsable entry = true then 0 else 1 := by
  rw [unusableDrivers, List.countP_cons, unusableDrivers]
  cases DriverUsable entry with
  | false => rfl
  | true => rfl

theorem probeDrivers_settled (h : Settled drivers ds) : probeDrivers i drivers ds s = .ok (ds, s, 0, unusableDrivers drivers) := by
  induction drivers generalizing i with
  | nil => rfl
  | cons entry rest ih =>
    have hrest : Settled rest ds := fun d hd hnone driver hm => h d hd hnone driver (List.mem_cons_of_mem entry hm)
    rw [unusableDrivers_cons]
    cases entry with
    | none =>
      rw [probeDrivers, ih hrest]
      rfl
    | some driver =>
      rw [probeDrivers]
      cases hc : driver.compatible with
      | none =>
        rw [ih hrest]
        simp [DriverUsable, hc]
      | some c =>
        cases hp : driver.probe with
        | none =>
          rw [ih hrest]
          simp [DriverUsable, hc, hp]
        | some probe =>
          have hskip : ∀ d ∈ ds, d.driver = none → d.resource.compatible ≠ some c := fun d hd hnone =>
            h d hd hnone driver List.mem_cons_self (by rw [hp]; exact Option.some_ne_none _) c hc
          simp only [probeDevices_settled hskip, ih hrest, ok_bind]
          simp [DriverUsable, hc, hp]

theorem probeDrivers_kept {bound failed : Nat} (h : probeDrivers i drivers ds s = .ok (ds', s', bound, failed)) :
    List.Forall₂ DeviceKept ds ds' := by
  have hsub : ∀ j, drivers[j]? = (List.replicate i none ++ drivers)[i + j]? := fun j => by
    rw [List.getElem?_append_right (by rw [List.length_replicate]; exact Nat.le_add_right i j), List.length_replicate,
      Nat.add_sub_cancel_left]
  exact (probeDrivers_ok hsub h).1.imp fun d d' hd => hd.kept

theorem Settled.cons {entry : Option (Driver S)} (h : Settled drivers ds)
    (hentry : ∀ driver, entry = some driver → driver.probe ≠ none → ∀ c, driver.compatible = some c →
      ∀ d ∈ ds, d.driver = none → d.resource.compatible ≠ some c) : Settled (entry :: drivers) ds := by
  intro d hd hnone driver hm hprobe c hc
  rcases List.mem_cons.mp hm with heq | hm
  · exact hentry driver heq.symm hprobe c hc d hd hnone
  · exact h d hd hnone driver hm hprobe c hc

/-- Every unusable entry counts as failed; if nothing else does, every device with a fitting driver is bound. -/
theorem probeDrivers_complete {bound failed : Nat} (h : probeDrivers i drivers ds s = .ok (ds', s', bound, failed)) :
    unusableDrivers drivers ≤ failed ∧ (failed = unusableDrivers drivers → Settled drivers ds') := by
  induction drivers generalizing i ds s ds' s' bound failed with
  | nil => exact ⟨Nat.zero_le _, fun _ d _ _ driver hm => absurd hm List.not_mem_nil⟩
  | cons entry rest ih =>
    rw [unusableDrivers_cons]
    have hskip : ∀ {b f : Nat} {ds₁ : List Device} {s₁ : S}, DriverUsable entry = false →
        probeDrivers (i + 1) rest ds s = .ok (ds₁, s₁, b, f) → (ds₁, s₁, b, f + 1) = (ds', s', bound, failed) →
        unusableDrivers rest + (if DriverUsable entry = true then 0 else 1) ≤ failed ∧
          (failed = unusableDrivers rest + (if DriverUsable entry = true then 0 else 1) → Settled (entry :: rest) ds') := by
      intro b f ds₁ s₁ hu h₁ heq
      obtain ⟨rfl, rfl, rfl, rfl⟩ : ds₁ = ds' ∧ s₁ = s' ∧ b = bound ∧ f + 1 = failed := by simpa using heq
      obtain ⟨hle, hsettled⟩ := ih h₁
      rw [if_neg (by rw [hu]; exact Bool.false_ne_true)]
      refine ⟨by omega, fun hf => (hsettled (by omega)).cons ?_⟩
      rintro driver rfl hprobe c hc
      rw [DriverUsable, Option.any_some, hc] at hu
      exact absurd (Option.not_isSome_iff_eq_none.mp (Bool.eq_false_iff.mp hu)) hprobe
    cases entry with
    | none =>
      obtain ⟨⟨ds₁, s₁, b, f⟩, h₁, h⟩ := bind_eq_ok.mp h
      exact hskip rfl h₁ (Except.ok.inj h)
    | some driver =>
      rw [probeDrivers] at h
      cases hc : driver.compatible with
      | none =>
        rw [hc] at h
        obtain ⟨⟨ds₁, s₁, b, f⟩, h₁, h⟩ := bind_eq_ok.mp h
        exact hskip (by rw [DriverUsable, Option.any_some, hc]; rfl) h₁ (Except.ok.inj h)
      | some c =>
        cases hp : driver.probe with
        | none =>
          rw [hc, hp] at h
          obtain ⟨⟨ds₁, s₁, b, f⟩, h₁, h⟩ := bind_eq_ok.mp h
          exact hskip (by rw [DriverUsable, Option.any_some, hc, hp]; rfl) h₁ (Except.ok.inj h)
        | some probe =>
          rw [hc, hp] at h
          obtain ⟨⟨ds₁, s₁, b₁, f₁⟩, h₁, h⟩ := bind_eq_ok.mp h
          obtain ⟨⟨ds₂, s₂, b₂, f₂⟩, h₂, h⟩ := bind_eq_ok.mp h
          obtain ⟨rfl, -, -, rfl⟩ : ds₂ = ds' ∧ s₂ = s' ∧ b₁ + b₂ = bound ∧ f₁ + f₂ = failed := by simpa using h
          obtain ⟨hle, hsettled⟩ := ih h₂
          have husable : DriverUsable (some driver) = true := by
            rw [DriverUsable, Option.any_some, hc, hp]
            rfl
          rw [if_pos husable]
          refine ⟨by omega, fun hf => (hsettled (by omega)).cons ?_⟩
          obtain rfl : f₁ = 0 := by omega
          -- what the other drivers leave unbound was unbound before them
          rintro driver' heq - c' hc' d hd hnone
          obtain rfl := Option.some.inj heq
          obtain rfl : c = c' := Option.some.inj (hc.symm.trans hc')
          obtain ⟨e, he, hresource, hbound⟩ := forall₂_mem_right (probeDrivers_kept h₂) hd
          rw [hresource]
          refine probeDevices_complete h₁ e he ?_
          refine Option.not_isSome_iff_eq_none.mp fun hb => ?_
          rw [← hbound hb, hnone] at hb
          cases hb

/-- The counts that `driver_probe_all` returns in a reachable state. If no probe has failed, every device with a
fitting driver is bound, and to call it again calls no probe and changes nothing. -/
theorem registry_probe {s₀ : S} {l : List (RegistryOp S)} {result : DriverProbeResult}
    (hrun : RegistryRuns table drivers (.empty, s₀) l (r, s))
    (hx : registryProbeAll table drivers r s = .ok (result, r', s')) :
    result.deviceCount = table.count ∧ result.driverCount = drivers.length ∧
      boundDevices r'.devices = boundDevices r.devices + result.boundCount ∧
      unusableDrivers drivers ≤ result.failedCount ∧
      (result.failedCount = unusableDrivers drivers → Settled drivers r'.devices ∧
        ∀ s₂, registryProbeAll table drivers r' s₂ = .ok ({ result with boundCount := 0 }, r', s₂)) := by
  obtain ⟨hok, -⟩ := registryRuns_ok hrun registryOk_empty
  obtain ⟨hok', -, hinit', hdevices, hdrivers, hbound⟩ := registryProbeAll_ok hok hx
  have hcount : r'.devices.length = table.count := by
    have hlen := congrArg List.length (hok'.resources hinit')
    simpa using hlen.symm
  obtain ⟨r₁, hinit, hx⟩ := bind_eq_ok.mp hx
  obtain ⟨⟨ds', s₁, bound, failed⟩, hprobe, hx⟩ := bind_eq_ok.mp hx
  obtain ⟨hle, hsettled⟩ := probeDrivers_complete hprobe
  obtain ⟨hres, hreg, -⟩ : _ = result ∧ { r₁ with devices := ds' } = r' ∧ s₁ = s' := by simpa using hx
  have hds : r'.devices = ds' := by rw [← hreg]
  have hfailed : result.failedCount = failed := by rw [← hres]
  refine ⟨hdevices.trans hcount, hdrivers, hbound, by omega, fun hf => ?_⟩
  have hdone : Settled drivers r'.devices := by
    rw [hds]
    exact hsettled (by omega)
  refine ⟨hdone, fun s₂ => ?_⟩
  rw [registryProbeAll, deviceInit, if_pos hinit', ok_bind, probeDrivers_settled hdone, ok_bind, ← hf, ← hdevices,
    ← hdrivers]

/-- The kernel's registry is settled once the accelerator is bound. -/
theorem registry_probe_sample : Settled builtInDrivers (registryOf 0x80020000 true).devices := by
  obtain ⟨s, hrun⟩ := sampleRegistryRun
  have hx : registryProbeAll (platformResources 0x80020000) builtInDrivers (registryOf 0x80020000 true) s =
      .ok ({ deviceCount := 1, driverCount := 1, boundCount := 0, failedCount := 0 }, registryOf 0x80020000 true, s) := rfl
  obtain ⟨-, -, -, -, hsettled⟩ := registry_probe hrun hx
  exact (hsettled rfl).1

/-! ### The registry and the model of the driver -/

/-- The registry agrees with what the kernel records of it. -/
def Mirrors (mmio : U64) (r : Registry) (k : Kernel) : Prop :=
  r = .empty ∧ k.accelBound = false ∨ r = registryOf mmio k.accelBound

variable {mmio : U64} {k : Kernel}

theorem Mirrors.init (h : Mirrors mmio r k) : deviceInit (platformResources mmio) r = .ok (registryOf mmio k.accelBound) := by
  rcases h with ⟨rfl, hb⟩ | rfl
  · rw [hb]
    rfl
  · rfl

theorem setAccelBound_self {b : Bool} (h : k.accelBound = b) : { k with accelBound := b } = k := by
  subst h
  rfl

theorem probeDrivers_accel (k : Kernel) : probeDrivers 0 builtInDrivers (registryOf mmio false).devices k =
    (accelProbe k >>= fun x => .ok (if x.1 = 0 then ((registryOf mmio true).devices, x.2, 1, 0)
      else ((registryOf mmio false).devices, x.2, 0, 1))) := by
  have hmatch : stringEqual (some "qemu-rtos,sim-accel") (some "qemu-rtos,sim-accel") = true :=
    (stringEqual_iff _ _).mpr ⟨_, rfl, rfl⟩
  have hskip : ¬((none : Option Nat).isSome = true ∨
      (!stringEqual (accelResource mmio).compatible (some "qemu-rtos,sim-accel")) = true) := by
    rintro (h | h)
    · cases h
    · rw [show (accelResource mmio).compatible = some "qemu-rtos,sim-accel" from rfl, hmatch] at h
      cases h
  simp only [builtInDrivers, accelDriver, probeDrivers, registryOf, probeDevices, if_neg hskip, Bool.false_eq_true,
    ↓reduceIte]
  cases accelProbe k with
  | error e => rfl
  | ok x =>
    simp only [ok_bind]
    by_cases hx : x.1 = 0
    · simp only [hx, ↓reduceIte, ok_bind]
    · simp only [hx, ↓reduceIte, ok_bind]

theorem registryProbeAll_accel (h : Mirrors mmio r k) :
    (registryProbeAll (platformResources mmio) builtInDrivers r k >>= fun x =>
      .ok (x.2.1, { x.2.2 with accelBound := decide (boundDevices x.2.1.devices ≠ 0) })) =
    (driverProbeAll k >>= fun k' => .ok (registryOf mmio k'.accelBound, k')) := by
  rw [registryProbeAll, h.init, ok_bind, driverProbeAll]
  cases hb : k.accelBound with
  | true =>
    rw [if_pos rfl, ok_bind]
    show Except.ok (registryOf mmio true, { k with accelBound := true }) = _
    rw [setAccelBound_self hb, hb]
  | false =>
    rw [if_neg Bool.false_ne_true, probeDrivers_accel]
    by_cases hid : k.accelMmio.id ≠ accelDeviceIdValue
    · rw [show accelProbe k = .ok (-1, k) from if_pos hid]
      show Except.ok (registryOf mmio false, { k with accelBound := false }) = .ok (registryOf mmio k.accelBound, k)
      rw [setAccelBound_self hb, hb]
    · rw [accelProbe, if_neg hid]
      cases waitQueueInit (accelWaiters k.machine.image) (some "accel-request") k with
      | error e => rfl
      | ok k₁ => rfl

theorem registryDispatch_accel (h : Mirrors mmio r k) : registryDispatchPendingIrqs mmio r k =
    (platformDispatchPendingIrqs k >>= fun k' => .ok (r, k')) := by
  rw [registryDispatchPendingIrqs, platformDispatchPendingIrqs]
  by_cases hpending : (!platformAccelIrqPending k.accelMmio) = true
  · rw [if_pos hpending, if_pos hpending]
    rfl
  rw [if_neg hpending, if_neg hpending, deviceDispatchIrq, if_neg (by decide), h.init]
  cases hb : k.accelBound with
  | false => rfl
  | true =>
    have hr : r = registryOf mmio true := by
      rcases h with ⟨-, hf⟩ | hr
      · rw [hb] at hf
        cases hf
      · rw [hr, hb]
    subst hr
    show ((accelIrqHandler k >>= fun k' => .ok (true, k')) >>= _) >>= _ = _
    cases accelIrqHandler k with
    | error e => rfl
    | ok k' => rfl

theorem accelDevice_eq (h : Mirrors mmio r k) :
    accelDevice mmio r = .ok (if k.accelBound then some 0 else none, registryOf mmio k.accelBound) := by
  have hmatch : stringEqual (accelResource mmio).compatible (some "qemu-rtos,sim-accel") = true :=
    (stringEqual_iff _ _).mpr ⟨_, rfl, rfl⟩
  rw [accelDevice, deviceFindByCompatible, h.init]
  cases k.accelBound with
  | false =>
    simp [registryOf, hmatch]
  | true =>
    simp [registryOf, hmatch]

namespace System

variable {σ σ' σ₀ : System}

/-- `boot`, with the drivers probed through the registry. -/
def registryBoot (mmio : U64) (k : Kernel) : Except Panic (Registry × System) := do
  let m ← pageInit k.machine.image.kernelEnd k.machine.image.ramEnd k.machine
  let (_, r, k) ← registryProbeAll (platformResources mmio) builtInDrivers .empty { k with machine := m }
  let k := { k with accelBound := decide (boundDevices r.devices ≠ 0) }
  let k ← threadInit k
  .ok (r, {
    kernel := k
    calls := fun _ => .idle
    queues := if k.accelBound then [accelWaiters k.machine.image] else []
    mutexes := []
    holds := fun _ _ => false })

/-- `exec`, with interrupts dispatched through the registry. -/
def registryExec (mmio : U64) (op : Op) (x : Registry × System) : Except Panic (Registry × System) :=
  match op with
  | .dispatchIrqs => do
    let (r, k) ← registryDispatchPendingIrqs mmio x.1 x.2.kernel
    .ok (r, x.2.setKernel k)
  | _ => do
    let σ ← exec op x.2
    .ok (x.1, σ)

/-- Runs of the system in which every interrupt goes through the registry. -/
abbrev SystemRegistryRuns (mmio : U64) : Registry × System → List Op → Registry × System → Prop :=
  Run (registryExec mmio) fun op x => Enabled op x.2 ∧ AttachOnce op x.2

theorem registryBoot_eq (hf : Fresh k) :
    registryBoot mmio k = (boot k >>= fun σ => .ok (registryOf mmio true, σ)) := by
  rw [registryBoot, boot]
  cases pageInit k.machine.image.kernelEnd k.machine.image.ramEnd k.machine with
  | error e => rfl
  | ok m =>
    have hf₁ : Fresh { k with machine := m } := ⟨hf.selftest, hf.unbound, hf.tasks, hf.mmio⟩
    have hmirrors : Mirrors mmio .empty { k with machine := m } := .inl ⟨rfl, hf.unbound⟩
    have hprobe := registryProbeAll_accel hmirrors
    rw [ok_bind, ok_bind]
    cases hregistry : registryProbeAll (platformResources mmio) builtInDrivers .empty { k with machine := m } with
    | error e =>
      rw [hregistry, error_bind] at hprobe
      cases hdriver : driverProbeAll { k with machine := m } with
      | error e' =>
        rw [hdriver, error_bind] at hprobe
        obtain rfl := Except.error.inj hprobe
        rfl
      | ok k₁ =>
        rw [hdriver, ok_bind] at hprobe
        cases hprobe
    | ok x =>
      obtain ⟨result, r, k₂⟩ := x
      rw [hregistry, ok_bind] at hprobe
      cases hdriver : driverProbeAll { k with machine := m } with
      | error e' =>
        rw [hdriver, error_bind] at hprobe
        cases hprobe
      | ok k₁ =>
        rw [hdriver, ok_bind] at hprobe
        obtain ⟨hr, hk⟩ := Prod.mk.inj (Except.ok.inj hprobe)
        obtain ⟨-, -, hbound, -⟩ := driverProbeAll_ok hf₁ hdriver
        dsimp only at hr hk
        rw [hbound] at hr
        rw [ok_bind, ok_bind]
        dsimp only
        rw [hk, hr]
        cases threadInit k₁ with
        | error e => rfl
        | ok k₃ => rfl

/-- A step through the registry is the step of the model. -/
theorem registryExec_eq (op : Op) (hb : σ.kernel.accelBound = true) :
    registryExec mmio op (registryOf mmio true, σ) = (exec op σ >>= fun σ' => .ok (registryOf mmio true, σ')) := by
  cases op with
  | dispatchIrqs =>
    have hm : Mirrors mmio (registryOf mmio true) σ.kernel := .inr (by rw [hb])
    show (registryDispatchPendingIrqs mmio (registryOf mmio true) σ.kernel >>= _) = _
    rw [registryDispatch_accel hm]
    show _ = ((platformDispatchPendingIrqs σ.kernel >>= fun k => .ok (σ.setKernel k)) >>= _)
    cases platformDispatchPendingIrqs σ.kernel with
    | error e => rfl
    | ok k => rfl
  | _ => rfl

theorem systemRegistryRuns_iff (h : DriverOk σ) (hb : σ.kernel.accelBound = true) (l : List Op)
    (x : Registry × System) :
    SystemRegistryRuns mmio (registryOf mmio true, σ) l x ↔ x.1 = registryOf mmio true ∧ Runs σ l x.2 := by
  induction l generalizing σ with
  | nil =>
    constructor
    · intro hrun
      cases hrun
      exact ⟨rfl, .nil σ⟩
    · obtain ⟨r, σ'⟩ := x
      rintro ⟨rfl, hrun⟩
      cases hrun
      exact .nil _
  | cons op l ih =>
    have hnext : ∀ {σ₁ : System}, Enabled op σ ∧ AttachOnce op σ → exec op σ = .ok σ₁ →
        DriverOk σ₁ ∧ σ₁.kernel.accelBound = true := fun hp hx =>
      ⟨h.step hp.1 hp.2 hx, (exec_accel h.sys hp.1 hx).bound h.accel hb⟩
    constructor
    · intro hrun
      cases hrun with
      | cons hp hx hrest =>
        rw [registryExec_eq op hb] at hx
        obtain ⟨σ₁, hx₁, hx⟩ := bind_eq_ok.mp hx
        obtain rfl := Except.ok.inj hx
        obtain ⟨h₁, hb₁⟩ := hnext hp hx₁
        obtain ⟨hr, hruns⟩ := (ih h₁ hb₁).mp hrest
        exact ⟨hr, .cons hp hx₁ hruns⟩
    · rintro ⟨hr, hrun⟩
      cases hrun with
      | @cons _ σ₁ _ _ _ hp hx hrest =>
        obtain ⟨h₁, hb₁⟩ := hnext hp hx
        refine .cons (t := (registryOf mmio true, σ₁)) hp ?_ ((ih h₁ hb₁).mpr ⟨hr, hrest⟩)
        rw [registryExec_eq op hb, hx, ok_bind]

/-- The registry with the kernel's tables is what the model of the driver does in one step: booting through it gives
the same system, and the runs in which every interrupt goes through it are the runs of the system, with the
accelerator bound throughout. -/
theorem registry_refines (hf : Fresh k) (hboot : boot k = .ok σ₀) :
    registryBoot mmio k = .ok (registryOf mmio true, σ₀) ∧
      (∀ l x, SystemRegistryRuns mmio (registryOf mmio true, σ₀) l x ↔ x.1 = registryOf mmio true ∧ Runs σ₀ l x.2) ∧
      ∀ l σ, Runs σ₀ l σ → accelDevice mmio (registryOf mmio true) =
        .ok (if σ.kernel.accelBound then some 0 else none, registryOf mmio true) := by
  have hb := boot_ok hf hboot
  have hdriver : DriverOk σ₀ := ⟨hb.ok, boot_accelOk hf hboot⟩
  refine ⟨?_, systemRegistryRuns_iff hdriver hb.bound, fun l σ hrun => ?_⟩
  · rw [registryBoot_eq hf, hboot, ok_bind]
  · have hbound := hrun.bound hdriver hb.bound
    have hm : Mirrors mmio (registryOf mmio true) σ.kernel := .inr (by rw [hbound])
    rw [accelDevice_eq hm, hbound]

/-- The sample kernel boots through the registry. -/
theorem registry_refines_sample : ∃ σ : System, boot sampleKernel = .ok σ ∧
    registryBoot 0x80020000 sampleKernel = .ok (registryOf 0x80020000 true, σ) := by
  obtain ⟨σ, -, hboot, -⟩ := runs_of_bootCheck (p := fun _ => true) (l := []) (k := sampleKernel) (by decide +kernel)
  exact ⟨σ, hboot, (registry_refines sampleKernel_fresh hboot).1⟩

end System

end QemuRtos
