import QemuRtos.User.Task

/-!
# Copies to and from a user task (`memory/usercopy.c`)

A user range is accepted when every page of it is mapped for the user with the needed permission.
The task-aware copies translate the range page by page and copy through the physical addresses.
-/

namespace QemuRtos

open Lib

def usercopyOk : Int := 0
def usercopyErrInvalid : Int := -1
def usercopyErrFault : Int := -2

/-- `usercopy_range_end`; `none` for `USERCOPY_ERR_INVALID`. -/
def usercopyRangeEnd (start len : U64) : Option U64 :=
  if len = 0 then some start
  else
    let rangeEnd := start + len
    if rangeEnd < start then none else some rangeEnd

/-- The page loop of `usercopy_validate_range_in_space`, for at most `fuel` pages. -/
def usercopyValidatePages (space : VmSpace) (needed lastPage : U64) :
    Nat → U64 → Machine → Except Panic (Int × Machine)
  | 0, _, _ => .error "usercopy_validate_range out of fuel"
  | fuel + 1, page, m => do
    let (result, mapping, m) ← vmGetMapping (some space) page m
    let flags := (mapping.getD (0, 0)).2
    if result ≠ vmOk then .ok (usercopyErrInvalid, m)
    else if flags &&& vmPteU = 0 ∨ flags &&& needed = 0 then .ok (usercopyErrInvalid, m)
    else if page = lastPage then .ok (usercopyOk, m)
    else usercopyValidatePages space needed lastPage fuel (page + 0x1000) m

def usercopyValidateRangeInSpace (space : VmSpace) (userVa len : U64) (write : Bool) (m : Machine) :
    Except Panic (Int × Machine) :=
  match usercopyRangeEnd userVa len with
  | none => .ok (usercopyErrInvalid, m)
  | some rangeEnd =>
    if len = 0 then .ok (usercopyOk, m)
    else if !userSpaceVaRangeIsValid userVa len then .ok (usercopyErrInvalid, m)
    else
      let firstPage := userVa &&& ~~~pageMask
      let lastPage := (rangeEnd - 1) &&& ~~~pageMask
      let needed := if write then vmPteW else vmPteR
      usercopyValidatePages space needed lastPage ((lastPage - firstPage).toNat / pageSize + 1) firstPage m

def usercopyTaskValidate (task userVa len : U64) (write : Bool) (k : Kernel) :
    Except Panic (Int × Kernel) :=
  if !userTaskIsReady task k then .ok (usercopyErrInvalid, k)
  else do
    let (result, m) ← usercopyValidateRangeInSpace (k.tasks task).addressSpace userVa len write k.machine
    .ok (result, { k with machine := m })

/-- The inner loop of `copy_user_task_bytes`, one byte after the other. -/
def copyChunk (dst src : Nat) (chunk : Nat) (mem : Mem) : Mem :=
  (List.range chunk).foldl (fun mem i => Function.update mem (dst + i) (mem (src + i))) mem

theorem and_pageMask_lt (a : U64) : (a &&& pageMask).toNat < pageSize := by
  rw [BitVec.toNat_and]
  exact Nat.lt_of_le_of_lt Nat.and_le_right (by decide)

/-- The loop of `copy_user_task_bytes` from `copied`. -/
def copyUserTaskLoop (space : VmSpace) (kernelPtr userVa : U64) (len : Nat) (writeUser : Bool)
    (copied : Nat) (m : Machine) : Except Panic (Int × Machine) :=
  if copied < len then do
    let currentVa := userVa + BitVec.ofNat 64 copied
    let (result, mapping, m) ← vmGetMapping (some space) currentVa m
    if result ≠ vmOk then .ok (usercopyErrInvalid, m)
    else
      let pa := (mapping.getD (0, 0)).1
      let pageRemaining := pageSize - (currentVa &&& pageMask).toNat
      let chunk := min (len - copied) pageRemaining
      let kernel := kernelPtr.toNat + copied
      let mem := if writeUser then copyChunk pa.toNat kernel chunk m.mem
        else copyChunk kernel pa.toNat chunk m.mem
      copyUserTaskLoop space kernelPtr userVa len writeUser (copied + chunk) { m with mem := mem }
  else .ok (usercopyOk, m)
termination_by len - copied
decreasing_by
  have := and_pageMask_lt (userVa + BitVec.ofNat 64 copied)
  omega

def copyUserTaskBytes (task kernelPtr userVa len : U64) (writeUser : Bool) (k : Kernel) :
    Except Panic (Int × Kernel) :=
  if len = 0 then .ok (usercopyOk, k)
  else do
    let (result, k) ← usercopyTaskValidate task userVa len writeUser k
    if result ≠ usercopyOk then .ok (result, k)
    else do
      let (result, m) ← copyUserTaskLoop (k.tasks task).addressSpace kernelPtr userVa len.toNat writeUser 0
        k.machine
      .ok (result, { k with machine := m })

def copyFromUserTask (task dst userSrc len : U64) (k : Kernel) : Except Panic (Int × Kernel) :=
  if len = 0 then .ok (usercopyOk, k)
  else if dst = 0 ∨ userSrc = 0 then .ok (usercopyErrInvalid, k)
  else copyUserTaskBytes task dst userSrc len false k

def copyToUserTask (task userDst src len : U64) (k : Kernel) : Except Panic (Int × Kernel) :=
  if len = 0 then .ok (usercopyOk, k)
  else if userDst = 0 ∨ src = 0 then .ok (usercopyErrInvalid, k)
  else copyUserTaskBytes task src userDst len true k

end QemuRtos
