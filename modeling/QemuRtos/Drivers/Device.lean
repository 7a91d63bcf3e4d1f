import QemuRtos.Drivers.Accel

/-!
# Devices and drivers (`drivers/device.c`, `arch/riscv64/platform.c`)

The registry binds the devices of the platform's resource table to the built-in drivers, and hands interrupts to
the handlers of the bound devices. Both tables are parameters; the kernel's own tables are at the end. What probes
and handlers change is a state `S`; they do not touch the registry.
-/

namespace QemuRtos

open Lib

def deviceMax : Nat := 16

/-- `IRQ_NONE`. -/
def irqNone : Int := -1

/-- `device_resource_t`; a `NULL` string is `none`. -/
structure DeviceResource where
  name : Option String
  compatible : Option String
  mmioBase : U64
  mmioSize : U64
  irq : Int
deriving DecidableEq

/-- `driver_t`. The probe and the handler read the device through its resource. -/
structure Driver (S : Type) where
  name : Option String
  compatible : Option String
  probe : Option (DeviceResource → S → Except Panic (Int × S))
  irqHandler : Option (DeviceResource → S → Except Panic S)

/-- `device_t`; the driver is its index in the table of built-in drivers. -/
structure Device where
  resource : DeviceResource
  driver : Option Nat
deriving DecidableEq

/-- `platform_device_resource_count` and `platform_device_resource_at`. -/
structure ResourceTable where
  count : Nat
  resourceAt : Nat → Option DeviceResource

/-- `devices` up to `device_count`, and `devices_initialized`. -/
structure Registry where
  devices : List Device
  initialized : Bool
deriving DecidableEq

/-- The static initialisers. -/
def Registry.empty : Registry := { devices := [], initialized := false }

structure DriverProbeResult where
  deviceCount : Nat
  driverCount : Nat
  boundCount : Nat
  failedCount : Nat
deriving DecidableEq

def stringEqualLoop : List Char → List Char → Bool
  | a :: as, b :: bs => if a ≠ b then false else stringEqualLoop as bs
  -- one of the two has ended: `*a == *b`
  | as, bs => decide (as.head? = bs.head?)

def stringEqual (a b : Option String) : Bool :=
  match a, b with
  | some a, some b => stringEqualLoop a.toList b.toList
  | _, _ => false

def deviceValidateUniqueIrqs : List Device → Except Panic Unit
  | [] => .ok ()
  | d :: ds =>
    if d.resource.irq = irqNone then deviceValidateUniqueIrqs ds
    else if ds.any fun e => e.resource.irq = d.resource.irq then .error "duplicate platform irq"
    else deviceValidateUniqueIrqs ds

/-- The loop of `device_init` over the rest `n` of the resource table from index `i`. -/
def deviceLoad (table : ResourceTable) (i : Nat) : Nat → Except Panic (List Device)
  | 0 => .ok []
  | n + 1 => match table.resourceAt i with
    | none => .error "missing platform device resource"
    | some resource => do
      let ds ← deviceLoad table (i + 1) n
      .ok ({ resource := resource, driver := none } :: ds)

def deviceInit (table : ResourceTable) (r : Registry) : Except Panic Registry :=
  if r.initialized then .ok r
  else if table.count > deviceMax then .error "too many platform devices"
  else do
    let devices ← deviceLoad table 0 table.count
    deviceValidateUniqueIrqs devices
    .ok { devices := devices, initialized := true }

variable {S : Type}

/-- The loop of `driver_probe_all` over the devices, for the driver at index `driver`. -/
def probeDevices (driver : Nat) (compatible : Option String) (probe : DeviceResource → S → Except Panic (Int × S)) :
    List Device → S → Except Panic (List Device × S × Nat × Nat)
  | [], s => .ok ([], s, 0, 0)
  | d :: ds, s =>
    if d.driver.isSome ∨ !stringEqual d.resource.compatible compatible then do
      let (ds, s, bound, failed) ← probeDevices driver compatible probe ds s
      .ok (d :: ds, s, bound, failed)
    else do
      let (result, s) ← probe d.resource s
      let (ds, s, bound, failed) ← probeDevices driver compatible probe ds s
      if result = 0 then .ok ({ d with driver := some driver } :: ds, s, bound + 1, failed)
      else .ok (d :: ds, s, bound, failed + 1)

/-- The loop of `driver_probe_all` over the drivers from index `i`. -/
def probeDrivers (i : Nat) : List (Option (Driver S)) → List Device → S → Except Panic (List Device × S × Nat × Nat)
  | [], ds, s => .ok (ds, s, 0, 0)
  | none :: drivers, ds, s => do
    let (ds, s, bound, failed) ← probeDrivers (i + 1) drivers ds s
    .ok (ds, s, bound, failed + 1)
  | some driver :: drivers, ds, s =>
    match driver.compatible, driver.probe with
    | some compatible, some probe => do
      let (ds, s, bound, failed) ← probeDevices i (some compatible) probe ds s
      let (ds, s, bound', failed') ← probeDrivers (i + 1) drivers ds s
      .ok (ds, s, bound + bound', failed + failed')
    | _, _ => do
      let (ds, s, bound, failed) ← probeDrivers (i + 1) drivers ds s
      .ok (ds, s, bound, failed + 1)

/-- `driver_probe_all`, for any tables. -/
def registryProbeAll (table : ResourceTable) (drivers : List (Option (Driver S))) (r : Registry) (s : S) :
    Except Panic (DriverProbeResult × Registry × S) := do
  let r ← deviceInit table r
  let (devices, s, bound, failed) ← probeDrivers 0 drivers r.devices s
  .ok ({ deviceCount := r.devices.length
         driverCount := drivers.length
         boundCount := bound
         failedCount := failed }, { r with devices := devices }, s)

def deviceFindByName (table : ResourceTable) (name : Option String) (r : Registry) :
    Except Panic (Option Nat × Registry) := do
  let r ← deviceInit table r
  .ok (r.devices.findIdx? fun d => stringEqual d.resource.name name, r)

def deviceFindByCompatible (table : ResourceTable) (compatible : Option String) (r : Registry) :
    Except Panic (Option Nat × Registry) := do
  let r ← deviceInit table r
  .ok (r.devices.findIdx? fun d => stringEqual d.resource.compatible compatible, r)

/-- The interrupt handler of a device: its driver may be missing, and may have none. -/
def Device.handler (drivers : List (Option (Driver S))) (d : Device) : Option (DeviceResource → S → Except Panic S) := do
  let i ← d.driver
  let driver ← drivers[i]?.join
  driver.irqHandler

/-- The loop of `device_dispatch_irq`. -/
def dispatchDevices (drivers : List (Option (Driver S))) (irq : Int) : List Device → S → Except Panic (Bool × S)
  | [], s => .ok (false, s)
  | d :: ds, s =>
    if d.resource.irq ≠ irq then dispatchDevices drivers irq ds s
    else match d.handler drivers with
      | none => dispatchDevices drivers irq ds s
      | some handler => do
        let s ← handler d.resource s
        .ok (true, s)

def deviceDispatchIrq (table : ResourceTable) (drivers : List (Option (Driver S))) (irq : Int) (r : Registry) (s : S) :
    Except Panic (Bool × Registry × S) :=
  if irq = irqNone then .ok (false, r, s)
  else do
    let r ← deviceInit table r
    let (found, s) ← dispatchDevices drivers irq r.devices s
    .ok (found, r, s)

/-! ### The kernel's own tables -/

def accelDeviceIrq : Int := 2

/-- `accel_resource`, for the address of the registers. -/
def accelResource (mmio : U64) : DeviceResource where
  name := some "sim-accel0"
  compatible := some "qemu-rtos,sim-accel"
  mmioBase := mmio
  mmioSize := 0x20
  irq := accelDeviceIrq

def platformResources (mmio : U64) : ResourceTable where
  count := 1
  resourceAt i := if i ≠ 0 then none else some (accelResource mmio)

def accelDriver : Driver Kernel where
  name := some "sim-accel"
  compatible := some "qemu-rtos,sim-accel"
  probe := some fun _ k => accelProbe k
  irqHandler := some fun _ k => accelIrqHandler k

/-- `built_in_drivers`. -/
def builtInDrivers : List (Option (Driver Kernel)) := [some accelDriver]

/-- `accel_device`: the index of the bound device, if there is one. -/
def accelDevice (mmio : U64) (r : Registry) : Except Panic (Option Nat × Registry) := do
  let (dev, r) ← deviceFindByCompatible (platformResources mmio) (some "qemu-rtos,sim-accel") r
  .ok (dev.filter fun i => r.devices[i]?.any fun d => d.driver.isSome, r)

/-- `platform_dispatch_pending_irqs` through the registry. -/
def registryDispatchPendingIrqs (mmio : U64) (r : Registry) (k : Kernel) : Except Panic (Registry × Kernel) :=
  if !platformAccelIrqPending k.accelMmio then .ok (r, k)
  else do
    let (found, r, k) ← deviceDispatchIrq (platformResources mmio) builtInDrivers accelDeviceIrq r k
    if !found then .error "unhandled simulated platform irq"
    else .ok (r, k)

end QemuRtos
