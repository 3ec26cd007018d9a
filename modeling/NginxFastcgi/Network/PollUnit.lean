/-!
# `CPollUnit`, what a pool polls

A unit has a descriptor, an event mask and the pool it is attached to.  The
mask takes effect when it is handed to `epoll_ctl`; `registered` is the mask
the kernel holds for the descriptor.  Modifying the events of a registered
descriptor succeeds.
-/

namespace NginxFastcgi.Network

/-- The identity of a `CPollPool` object. -/
abbrev PoolId := Nat

/-- The bits of an event mask that the modelled units use. -/
structure EpollEvents where
  epollin : Bool := false
  epollout : Bool := false
  deriving DecidableEq

structure CPollUnit where
  /-- `none` is `NULL`. -/
  mOwner : Option PoolId := none
  mFd : Int := -1
  mEvents : EpollEvents := {}
  registered : EpollEvents := {}
  deriving DecidableEq

namespace CPollUnit

def enableInput (unit : CPollUnit) : CPollUnit :=
  { unit with mEvents := { unit.mEvents with epollin := true } }

def disableInput (unit : CPollUnit) : CPollUnit :=
  { unit with mEvents := { unit.mEvents with epollin := false } }

def enableOutput (unit : CPollUnit) : CPollUnit :=
  { unit with mEvents := { unit.mEvents with epollout := true } }

def disableOutput (unit : CPollUnit) : CPollUnit :=
  { unit with mEvents := { unit.mEvents with epollout := false } }

/-- `GetOwner()->ModifyEvent(this)`; without an owner the call goes through a
null pointer, which is the result `none`. -/
def modifyEvent (unit : CPollUnit) : Option CPollUnit :=
  unit.mOwner.map fun _ => { unit with registered := unit.mEvents }

/-- What `CPollPool::AttachUnit` leaves in the unit when it succeeds. -/
def attachedTo (unit : CPollUnit) (pool : PoolId) : CPollUnit :=
  { unit with mOwner := some pool, registered := unit.mEvents }

theorem modifyEvent_of_owner {unit : CPollUnit} {pool : PoolId}
    (owner : unit.mOwner = some pool) :
    unit.modifyEvent = some { unit with registered := unit.mEvents } := by
  rw [modifyEvent, owner]
  rfl

end CPollUnit

end NginxFastcgi.Network
