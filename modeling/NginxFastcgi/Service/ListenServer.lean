import NginxFastcgi.Foundation.MachineInt
import NginxFastcgi.Network.EventLoop

/-!
# Starting the listen server

`InitListenServer` takes over a listening socket from the environment or makes
one, and attaches a listener to the listen thread.  Every exit closes the
descriptor that the environment names.

The answers of the system calls are arbitrary; a call that is not made has an
answer that is not used.  Which texts denote an address is a parameter.  The
kernel keeps the address that each descriptor was last bound to, and whether
the epoll set of the listen thread exists.
-/

namespace NginxFastcgi.Service.ListenServer

open Foundation.MachineInt
open NginxFastcgi.Network

/-! ## Text and addresses -/

/-- White space as `isspace` has it. -/
def isSpace (char : Char) : Bool :=
  char.toNat = 32 ∨ 9 ≤ char.toNat ∧ char.toNat ≤ 13

/-- The number that a run of digits stands for. -/
def digitsValue (text : List Char) : Nat :=
  (text.takeWhile Char.isDigit).foldl (fun value char => 10 * value + (char.toNat - 48)) 0

/-- `strtol` in base ten, which stops at the limits of a 64-bit number. -/
def strtol (text : List Char) : Int :=
  match text.dropWhile isSpace with
  | '-' :: digits => max (-2 ^ 63) (-(digitsValue digits : Int))
  | '+' :: digits => min (2 ^ 63 - 1) (digitsValue digits)
  | digits => min (2 ^ 63 - 1) (digitsValue digits)

def atoi (text : String) : Int :=
  toInt32 (strtol text.toList)

/-- An IPv4 address, first byte first. -/
structure InAddr where
  first : UInt8
  second : UInt8
  third : UInt8
  fourth : UInt8
  deriving DecidableEq

def inetNtoa (address : InAddr) : String :=
  toString address.first.toNat ++ "." ++ toString address.second.toNat ++ "." ++
    toString address.third.toNat ++ "." ++ toString address.fourth.toNat

/-- `INADDR_NONE`. -/
def inaddrNone : InAddr := ⟨255, 255, 255, 255⟩

/-- `inet_addr`, which has no other value for a text that denotes no address. -/
def inetAddr (inetAton : String → Option InAddr) (text : String) : InAddr :=
  (inetAton text).getD inaddrNone

/-- A `sockaddr_in`; the port is in host order. -/
structure SockAddr where
  sinAddr : InAddr
  sinPort : UInt16
  deriving DecidableEq

/-- Conversion of a port to `int16_t`. -/
def toInt16 (port : UInt16) : Int :=
  Int.bmod port.toNat (2 ^ 16)

/-! ## The inherited socket -/

/-- What `getsockname` reports for a descriptor, if it succeeds. -/
abbrev Getsockname := Int → Option SockAddr

/-- `GetInheritedSocket`, with the value of the environment variable. -/
def getInheritedSocket (env : Option String) (getsockname : Getsockname) (ip : String)
    (port : UInt16) : Int :=
  match env with
  | none => -1
  | some text =>
      let inherited := atoi text
      match getsockname inherited with
      | some listenAddr =>
          if inetNtoa listenAddr.sinAddr ≠ ip ∨ toInt16 listenAddr.sinPort ≠ port.toNat then
            -1
          else
            inherited
      | none => -1

/-- The descriptors of the process, what they are bound to, and the listen
thread with its `m_epoll_fd`. -/
structure World where
  kernel : Kernel := {}
  bound : Int → Option SockAddr := fun _ => none
  listenThread : CPollPool
  mEpollFd : Int
  /-- `m_epoll_fd` still refers to the epoll set that `Init` created. -/
  epollSet : Bool := true
  nextUnit : UnitId := 0

namespace World

/-- `close`.  With its descriptor an epoll set is gone. -/
def close (world : World) (fd : Int) : World :=
  { world with
    kernel := world.kernel.close fd
    epollSet := world.epollSet && fd != world.mEpollFd }

end World

def closeInheritedSocket (env : Option String) (world : World) : World :=
  match env with
  | none => world
  | some text => world.close (atoi text)

/-! ## The listener -/

structure CTcpListener extends CListener where
  mAddress : String
  mPort : UInt16
  mRcvbufSize : Int := 0
  mSndbufSize : Int := 0
  mReuse : Int := 1
  mNodelay : Int := 1

/-- What `getsockopt` leaves in the options of a listener. -/
structure SocketOptions where
  rcvbufSize : Int := 0
  sndbufSize : Int := 0
  reuse : Int := 1
  nodelay : Int := 1
  deferAccept : Int := 0

namespace CTcpListener

/-- The constructor for an address. -/
def ofAddress (address : String) (port : UInt16) : CTcpListener where
  toCListener := CListener.new (-1) 1
  mAddress := address
  mPort := port

/-- The constructor for a descriptor, which asks for its address again. -/
def ofSocket (fd : Int) (getsockname : Getsockname) (options : SocketOptions) : CTcpListener :=
  if fd < 0 then
    { toCListener := CListener.new fd 0, mAddress := "", mPort := 0 }
  else
    let named := getsockname fd
    { toCListener := CListener.new fd options.deferAccept
      mAddress := match named with
        | none => ""
        | some myAddr => inetNtoa myAddr.sinAddr
      mPort := match named with
        | none => 0
        | some myAddr => myAddr.sinPort
      mRcvbufSize := options.rcvbufSize
      mSndbufSize := options.sndbufSize
      mReuse := options.reuse
      mNodelay := options.nodelay }

/-- The address that `Listen` asks `bind` for. -/
def listenAddr (inetAton : String → Option InAddr) (listener : CTcpListener) : SockAddr where
  sinAddr := inetAddr inetAton listener.mAddress
  sinPort := listener.mPort

end CTcpListener

/-- The answers of the system calls. -/
structure Answers where
  getsockname : Getsockname := fun _ => none
  /-- In the constructor of the listener. -/
  getsocknameAgain : Getsockname := fun _ => none
  options : SocketOptions := {}
  socket : Int
  setReuseaddr : Bool := true
  setNodelay : Bool := true
  setDeferAccept : Bool := true
  bind : Bool := true
  /-- The port that `bind` chooses where it is asked for port 0. -/
  freePort : { port : UInt16 // port ≠ 0 } := ⟨32768, by decide⟩
  listen : Bool := true
  setRcvbuf : Bool := true
  setSndbuf : Bool := true
  /-- The kernel does not refuse to add the descriptor. -/
  granted : Bool := true

/-- What a socket is bound to after a successful `bind`. -/
def Answers.bindAddr (answers : Answers) (requested : SockAddr) : SockAddr :=
  if requested.sinPort = 0 then
    { requested with sinPort := answers.freePort.val }
  else
    requested

/-- A call of `setsockopt`, made for a positive value only. -/
def optionSet (value : Int) (succeeds : Bool) : Bool :=
  value ≤ 0 ∨ succeeds

namespace World

/-- The end of `Listen` after a failure. -/
def listenFailed (world : World) (listener : CTcpListener) : World × CTcpListener × Int :=
  (world.close listener.mFd, { listener with mFd := -1 }, -1)

/-- `Listen`. -/
def listen (inetAton : String → Option InAddr) (world : World) (listener : CTcpListener)
    (answers : Answers) : World × CTcpListener × Int :=
  if listener.mFd > 0 then
    (world, listener, 0)
  else
    let opened := { listener with mFd := answers.socket }
    if answers.socket = -1 then
      (world, opened, -1)
    else
      let created := { world with kernel := world.kernel.create answers.socket }
      if optionSet listener.mReuse answers.setReuseaddr ∧
          optionSet listener.mNodelay answers.setNodelay ∧
          optionSet listener.mDeferAccept answers.setDeferAccept ∧ answers.bind then
        let named := { created with
          bound := Function.update created.bound answers.socket
            (some (answers.bindAddr (listener.listenAddr inetAton))) }
        if answers.listen ∧ optionSet listener.mRcvbufSize answers.setRcvbuf ∧
            optionSet listener.mSndbufSize answers.setSndbuf then
          (named, opened, 0)
        else
          named.listenFailed opened
      else
        created.listenFailed opened

/-- `AttachUnit` of the listen thread.  `epoll_ctl` fails without the set. -/
def attachUnit (world : World) (listener : CTcpListener) (granted : Bool) :
    World × CTcpListener × Int :=
  let attached := world.listenThread.attach world.kernel world.nextUnit listener.toCPollUnit
    (world.epollSet && granted)
  ({ world with
      listenThread := attached.1
      kernel := attached.2.1
      nextUnit := world.nextUnit + 1 },
    { listener with toCPollUnit := attached.2.2.1 }, attached.2.2.2)

end World

/-! ## The configuration -/

/-- The values in a configuration; a number is one without a fraction. -/
inductive Json
  | null
  | number (value : Int)
  | string (value : String)
  | object (members : List (String × Json))
  | other

/-- A member of an object. -/
def Json.member : Json → String → Option Json
  | .object members, key => members.lookup key
  | _, _ => none

/-- The `ip` and `port` of `listen`, if they have the types that
`InitListenServer` asks for.  The port is passed on as `uint16_t`. -/
def listenConfig (config : Json) : Option (String × UInt16) :=
  match config.member "listen" with
  | some (.object members) =>
      match members.lookup "ip", members.lookup "port" with
      | some (.string ip), some (.number port) =>
          if 0 ≤ port ∧ port < 2 ^ 32 then some (ip, UInt16.ofNat port.toNat) else none
      | _, _ => none
  | _ => none

/-! ## The server -/

/-- The listener that `InitListenServer` makes. -/
def newListener (inherited : Int) (ip : String) (port : UInt16) (answers : Answers) :
    CTcpListener :=
  if inherited = -1 then
    CTcpListener.ofAddress ip port
  else
    CTcpListener.ofSocket inherited answers.getsocknameAgain answers.options

/-- `InitListenServer` up to the call of `CloseInheritedSocket`. -/
def openListener (inetAton : String → Option InAddr) (config : Json) (env : Option String)
    (answers : Answers) (world : World) : World × Option CTcpListener × Bool :=
  match listenConfig config with
  | none => (world, none, false)
  | some (ip, port) =>
      let inherited := getInheritedSocket env answers.getsockname ip port
      let listening := world.listen inetAton (newListener inherited ip port answers) answers
      if listening.2.2 ≠ 0 then
        (listening.1, some listening.2.1, false)
      else
        let attached := listening.1.attachUnit listening.2.1 answers.granted
        (attached.1, some attached.2.1, attached.2.2 = 0)

/-- `InitListenServer`, with `gs_listener` and what it returns. -/
def initListenServer (inetAton : String → Option InAddr) (config : Json) (env : Option String)
    (answers : Answers) (world : World) : World × Option CTcpListener × Bool :=
  let opened := openListener inetAton config env answers world
  (closeInheritedSocket env opened.1, opened.2)

/-! ## What a start leaves -/

/-- The text denotes the address, and the port is this one. -/
def Configured (inetAton : String → Option InAddr) (ip : String) (port : UInt16)
    (address : SockAddr) : Prop :=
  inetAton ip = some address.sinAddr ∧ address.sinPort = port

/-- The descriptor is open, bound to the address of the configuration, and
registered in the epoll set of the listen thread. -/
structure Usable (inetAton : String → Option InAddr) (ip : String) (port : UInt16)
    (world : World) (fd : Int) : Prop where
  opened : world.kernel.opened fd = true
  bound : ∃ address, world.bound fd = some address ∧ Configured inetAton ip port address
  epollSet : world.epollSet = true
  registered : world.kernel.interest fd = true

/-- The environment names a descriptor whose address is the configured one. -/
def Adopts (env : Option String) (getsockname : Getsockname) (ip : String) (port : UInt16) :
    Prop :=
  ∃ text address, env = some text ∧ getsockname (atoi text) = some address ∧
    inetNtoa address.sinAddr = ip ∧ toInt16 address.sinPort = port.toNat ∧ atoi text ≠ -1

/-- A new socket for the listener is bound to the configured address. -/
def BindsConfigured (inetAton : String → Option InAddr) (answers : Answers) (ip : String)
    (port : UInt16) (listener : CTcpListener) : Prop :=
  Configured inetAton ip port (answers.bindAddr (listener.listenAddr inetAton))

/-- The descriptor in the environment, if there is one, is neither that of the
new socket nor that of the epoll set.  The configured ip denotes an address and
the configured port is not 0; or the descriptor is taken over and not positive,
and the address read back from it makes up for it. -/
structure SparesListener (inetAton : String → Option InAddr) (env : Option String)
    (answers : Answers) (mEpollFd : Int) (ip : String) (port : UInt16) : Prop where
  spared : ∀ text, env = some text → answers.socket ≠ atoi text ∧ mEpollFd ≠ atoi text
  not_positive : ∀ text, env = some text → Adopts env answers.getsockname ip port → atoi text ≤ 0
  fresh : ¬ Adopts env answers.getsockname ip port → (inetAton ip).isSome ∧ port ≠ 0
  replaced : ∀ text, env = some text → Adopts env answers.getsockname ip port →
    BindsConfigured inetAton answers ip port
      (CTcpListener.ofSocket (atoi text) answers.getsocknameAgain answers.options)

variable {inetAton : String → Option InAddr} {env : Option String} {answers : Answers}
variable {ip : String} {port : UInt16}

/-- The inherited socket is the descriptor in the environment, or none. -/
theorem getInheritedSocket_cases (env : Option String) (getsockname : Getsockname) (ip : String)
    (port : UInt16) :
    getInheritedSocket env getsockname ip port = -1 ∧ ¬ Adopts env getsockname ip port ∨
      ∃ text, env = some text ∧ getInheritedSocket env getsockname ip port = atoi text ∧
        atoi text ≠ -1 ∧ Adopts env getsockname ip port := by
  cases env with
  | none => exact Or.inl ⟨rfl, nofun⟩
  | some text =>
      simp only [getInheritedSocket]
      cases named : getsockname (atoi text) with
      | none =>
          refine Or.inl ⟨rfl, ?_⟩
          rintro ⟨other, address, textEq, addressEq, -⟩
          cases textEq
          rw [named] at addressEq
          contradiction
      | some address =>
          by_cases differs : inetNtoa address.sinAddr ≠ ip ∨ toInt16 address.sinPort ≠ port.toNat
          · refine Or.inl ⟨if_pos differs, ?_⟩
            rintro ⟨other, otherAddress, textEq, addressEq, sameIp, samePort, -⟩
            cases textEq
            rw [named] at addressEq
            cases addressEq
            exact differs.elim (absurd sameIp) (absurd samePort)
          · have same := not_or.mp differs
            simp only [if_neg differs]
            by_cases none_open : atoi text = -1
            · refine Or.inl ⟨none_open, ?_⟩
              rintro ⟨other, -, textEq, -, -, -, some_open⟩
              cases textEq
              exact some_open none_open
            · exact Or.inr ⟨text, rfl, rfl, none_open, text, address, rfl, named,
                not_not.mp same.1, not_not.mp same.2, none_open⟩

/-- A listener that has a positive descriptor is left as it is; another one gets
a new socket, bound as the kernel answers. -/
theorem listen_cases {world : World} {listener : CTcpListener}
    (listens : (world.listen inetAton listener answers).2.2 = 0) :
    listener.mFd > 0 ∧ world.listen inetAton listener answers = (world, listener, 0) ∨
      ¬ listener.mFd > 0 ∧ world.listen inetAton listener answers =
        ({ world with
            kernel := world.kernel.create answers.socket
            bound := Function.update world.bound answers.socket
              (some (answers.bindAddr (listener.listenAddr inetAton))) },
          { listener with mFd := answers.socket }, 0) := by
  unfold World.listen at listens ⊢
  by_cases positive : listener.mFd > 0
  · exact Or.inl ⟨positive, if_pos positive⟩
  · right
    rw [if_neg positive] at listens ⊢
    refine ⟨positive, ?_⟩
    simp only at listens ⊢
    split at listens
    · contradiction
    · rename_i some_socket
      rw [if_neg some_socket]
      split at listens
      · rename_i optionsSet
        rw [if_pos optionsSet]
        split at listens
        · rename_i listening
          rw [if_pos listening]
        · contradiction
      · contradiction

/-- An attached listener is usable if its descriptor is bound to the configured
address. -/
theorem attachUnit_usable {world : World} {listener : CTcpListener} {granted : Bool}
    (attaches : (world.attachUnit listener granted).2.2 = 0) :
    (world.attachUnit listener granted).2.1.mFd = listener.mFd ∧
      (Usable inetAton ip port (world.attachUnit listener granted).1 listener.mFd ↔
        ∃ address, world.bound listener.mFd = some address ∧
          Configured inetAton ip port address) := by
  unfold World.attachUnit at attaches ⊢
  cases present : world.epollSet with
  | false =>
      rw [present, Bool.false_and, CPollPool.attach_refused] at attaches
      contradiction
  | true =>
      rw [present] at attaches
      rcases world.listenThread.attach_cases world.kernel world.nextUnit listener.toCPollUnit
          (true && granted) with ⟨opened, attached⟩ | refused
      · simp only [attached]
        refine ⟨rfl, Usable.bound, fun bound => ?_⟩
        exact ⟨opened, bound, rfl, Function.update_self _ _ _⟩
      · simp only [refused] at attaches
        contradiction

/-- Closing the descriptor in the environment spares a listener on another one
in an epoll set on another one. -/
theorem usable_closeInheritedSocket {world : World} {fd : Int} :
    Usable inetAton ip port (closeInheritedSocket env world) fd ↔
      Usable inetAton ip port world fd ∧
        ∀ text, env = some text → fd ≠ atoi text ∧ world.mEpollFd ≠ atoi text := by
  cases env with
  | none =>
      constructor
      · exact fun usable => ⟨usable, nofun⟩
      · exact fun both => both.1
  | some text =>
      constructor
      · rintro ⟨opened, bound, epollSet, registered⟩
        have apart : fd ≠ atoi text := by
          rintro rfl
          simp [closeInheritedSocket, World.close, Kernel.close] at opened
        simp only [closeInheritedSocket, World.close, Bool.and_eq_true, bne_iff_ne] at epollSet
        simp only [closeInheritedSocket, World.close, Kernel.close,
          Function.update_of_ne apart] at opened registered
        refine ⟨⟨opened, bound, epollSet.1, registered⟩, ?_⟩
        rintro name nameEq
        cases nameEq
        exact ⟨apart, Ne.symm epollSet.2⟩
      · rintro ⟨⟨opened, bound, epollSet, registered⟩, others⟩
        obtain ⟨apart, setApart⟩ := others text rfl
        refine ⟨?_, bound, ?_, ?_⟩
        · exact (Function.update_of_ne apart _ _).trans opened
        · simp [closeInheritedSocket, World.close, epollSet, Ne.symm setApart]
        · exact (Function.update_of_ne apart _ _).trans registered

/-- An opened listener is usable if its descriptor is bound to the configured
address. -/
theorem openListener_usable {config : Json} (configured : listenConfig config = some (ip, port))
    {world after : World} {listener : CTcpListener}
    (opens : openListener inetAton config env answers world = (after, some listener, true)) :
    ∃ listening,
      world.listen inetAton
        (newListener (getInheritedSocket env answers.getsockname ip port) ip port answers)
        answers = listening ∧
      listening.2.2 = 0 ∧ listener.mFd = listening.2.1.mFd ∧
      after.mEpollFd = listening.1.mEpollFd ∧
      (Usable inetAton ip port after listener.mFd ↔
        ∃ address, listening.1.bound listener.mFd = some address ∧
          Configured inetAton ip port address) := by
  simp only [openListener, configured] at opens
  split at opens
  · cases opens
  · rename_i listens
    obtain ⟨afterEq, rest⟩ := Prod.mk.inj opens
    obtain ⟨listenerEq, attaches⟩ := Prod.mk.inj rest
    obtain ⟨sameFd, usable⟩ := attachUnit_usable (decide_eq_true_eq.mp attaches)
    rw [← afterEq, ← Option.some.inj listenerEq, sameFd]
    exact ⟨_, rfl, not_not.mp listens, rfl, rfl, usable⟩

theorem mFd_ofSocket (fd : Int) (getsockname : Getsockname) (options : SocketOptions) :
    (CTcpListener.ofSocket fd getsockname options).mFd = fd := by
  rw [CTcpListener.ofSocket]
  split <;> rfl

/-- A listener on a new socket is bound to its own address, if that names a
port. -/
theorem bound_of_listenEq {world : World} {listener : CTcpListener}
    (notPositive : ¬ listener.mFd > 0)
    (listens : (world.listen inetAton listener answers).2.2 = 0) :
    (world.listen inetAton listener answers).2.1.mFd = answers.socket ∧
      (world.listen inetAton listener answers).1.mEpollFd = world.mEpollFd ∧
      ((∃ address, (world.listen inetAton listener answers).1.bound answers.socket =
          some address ∧ Configured inetAton ip port address) ↔
        BindsConfigured inetAton answers ip port listener) := by
  rcases listen_cases listens with ⟨positive, -⟩ | ⟨-, listenEq⟩
  · exact absurd positive notPositive
  · rw [listenEq]
    refine ⟨rfl, rfl, ?_⟩
    simp only [Function.update_self, Option.some.injEq, exists_eq_left', BindsConfigured]

/-- A new listener is bound as configured if its ip denotes an address and it
asks for a port. -/
theorem bindsConfigured_ofAddress :
    BindsConfigured inetAton answers ip port (CTcpListener.ofAddress ip port) ↔
      (inetAton ip).isSome ∧ port ≠ 0 := by
  have portEq : ((CTcpListener.ofAddress ip port).listenAddr inetAton).sinPort = port := rfl
  have addrEq : ((CTcpListener.ofAddress ip port).listenAddr inetAton).sinAddr =
      inetAddr inetAton ip := rfl
  unfold BindsConfigured Configured Answers.bindAddr
  by_cases none_asked : port = 0
  · subst none_asked
    rw [if_pos portEq]
    have chosen := answers.freePort.property
    simp [chosen]
  · rw [if_neg (portEq ▸ none_asked), portEq, addrEq]
    cases denoted : inetAton ip <;> simp [inetAddr, denoted, none_asked]

theorem usable_of_started {config : Json}
    (configured : listenConfig config = some (ip, port)) {world after : World}
    {listener : CTcpListener}
    (started : initListenServer inetAton config env answers world =
      (after, some listener, true)) :
    Usable inetAton ip port after listener.mFd ↔
      SparesListener inetAton env answers world.mEpollFd ip port := by
  obtain ⟨afterEq, opensEq⟩ := Prod.mk.inj started
  obtain ⟨listening, listenEq, listens, fdEq, setEq, usable⟩ :=
    openListener_usable configured (Prod.ext rfl opensEq)
  rw [← afterEq, usable_closeInheritedSocket, usable, setEq]
  subst listenEq
  rcases getInheritedSocket_cases env answers.getsockname ip port with
    ⟨inherited, adoptsNot⟩ | ⟨text, envEq, inherited, some_open, adopts⟩
  · -- A new listener for the configured address.
    rw [inherited, newListener, if_pos rfl] at listens fdEq ⊢
    have unopened : ¬ (CTcpListener.ofAddress ip port).mFd > 0 := (by decide : ¬ (-1 : Int) > 0)
    obtain ⟨socketEq, sameSet, bound⟩ := bound_of_listenEq unopened listens
    rw [socketEq] at fdEq
    rw [fdEq, bound, bindsConfigured_ofAddress, sameSet]
    constructor
    · rintro ⟨fresh, spared⟩
      exact ⟨spared, fun _ _ adopts => absurd adopts adoptsNot, fun _ => fresh,
        fun _ _ adopts => absurd adopts adoptsNot⟩
    · intro spares
      exact ⟨spares.fresh adoptsNot, spares.spared⟩
  · rw [inherited, newListener, if_neg some_open] at listens fdEq ⊢
    by_cases positive : atoi text > 0
    · -- The listener has the inherited descriptor itself.
      have listenEq := (listen_cases listens).resolve_right fun renewed =>
        renewed.1 (by rwa [mFd_ofSocket])
      rw [listenEq.2, mFd_ofSocket] at fdEq
      refine iff_of_false ?_ fun spares => ?_
      · rintro ⟨-, others⟩
        exact (others text envEq).1 fdEq
      · exact absurd (spares.not_positive text envEq adopts) (by omega)
    · -- Descriptor 0 counts as none, and is replaced by a new socket.
      obtain ⟨socketEq, sameSet, bound⟩ := bound_of_listenEq (by rwa [mFd_ofSocket]) listens
      rw [socketEq] at fdEq
      rw [fdEq, bound, sameSet]
      constructor
      · rintro ⟨replaced, spared⟩
        refine ⟨spared, ?_, fun notAdopted => absurd adopts notAdopted, ?_⟩
        · intro name nameEq _
          cases envEq.symm.trans nameEq
          omega
        · intro name nameEq _
          cases envEq.symm.trans nameEq
          exact replaced
      · intro spares
        exact ⟨spares.replaced text envEq adopts, spares.spared⟩

/-! ## The configured address -/

/-- The configuration has a string `ip` and a `port` of up to 65535. -/
def Configures (config : Json) (ip : String) (port : UInt16) : Prop :=
  ∃ members, config.member "listen" = some (.object members) ∧
    members.lookup "ip" = some (.string ip) ∧
    members.lookup "port" = some (.number port.toNat)

theorem listenConfig_of_configures {config : Json} (configures : Configures config ip port) :
    listenConfig config = some (ip, port) := by
  obtain ⟨members, listenEq, ipEq, portEq⟩ := configures
  have small : 0 ≤ (port.toNat : Int) ∧ (port.toNat : Int) < 2 ^ 32 := by
    have bounded := port.toNat_lt
    omega
  simp only [listenConfig, listenEq, ipEq, portEq, if_pos small, Int.toNat_natCast,
    UInt16.ofNat_toNat]

theorem listener_of_configured {config : Json}
    (configured : listenConfig config = some (ip, port)) (world : World) :
    ∃ listener, (openListener inetAton config env answers world).2.1 = some listener := by
  simp only [openListener, configured]
  split <;> exact ⟨_, rfl⟩

/-- If `InitListenServer` returns `true`, its listener is usable for the
configured address exactly when the configuration names one and the descriptor
in the environment spares the listener and its epoll set. -/
theorem usable_iff_sparesListener (inetAton : String → Option InAddr) {config : Json}
    (configures : Configures config ip port) (env : Option String) (answers : Answers)
    (world : World)
    (returns : (initListenServer inetAton config env answers world).2.2 = true) :
    ∃ listener, (initListenServer inetAton config env answers world).2.1 = some listener ∧
      (Usable inetAton ip port (initListenServer inetAton config env answers world).1
          listener.mFd ↔
        SparesListener inetAton env answers world.mEpollFd ip port) := by
  have configured := listenConfig_of_configures configures
  obtain ⟨listener, listenerEq⟩ := listener_of_configured configured world
  have started : initListenServer inetAton config env answers world =
      (_, some listener, true) := Prod.ext rfl (Prod.ext listenerEq returns)
  exact ⟨listener, listenerEq, usable_of_started configured started⟩

/-- A configuration for a port of the loopback address. -/
def loopbackConfig : Json :=
  .object [("listen", .object [("ip", .string "127.0.0.1"), ("port", .number 8080)])]

def loopback : SockAddr where
  sinAddr := ⟨127, 0, 0, 1⟩
  sinPort := 8080

/-- The address above, and no other. -/
def loopbackAton (text : String) : Option InAddr :=
  if text = "127.0.0.1" then some loopback.sinAddr else none

theorem loopback_configures : Configures loopbackConfig "127.0.0.1" 8080 :=
  ⟨_, rfl, rfl, rfl⟩

/-- The listen thread after `Init`. -/
def fresh : World where
  kernel := { opened := fun fd => fd = 4 }
  listenThread := { self := 0 }
  mEpollFd := 4

/-- Nothing is inherited, and every call succeeds. -/
theorem usable_of_loopback :
    ∃ listener,
      (initListenServer loopbackAton loopbackConfig none { socket := 5 } fresh).2.1 =
        some listener ∧
      Usable loopbackAton "127.0.0.1" 8080
        (initListenServer loopbackAton loopbackConfig none { socket := 5 } fresh).1
        listener.mFd := by
  obtain ⟨listener, listenerEq, exactly⟩ := usable_iff_sparesListener loopbackAton
    loopback_configures none { socket := 5 } fresh (by decide)
  exact ⟨listener, listenerEq,
    exactly.mpr ⟨nofun, nofun, fun _ => ⟨by decide, by decide⟩, nofun⟩⟩

/-- A process that inherits the listening socket 7. -/
def inheriting : World where
  kernel := { opened := fun fd => fd = 4 ∨ fd = 7 }
  bound := fun fd => if fd = 7 then some loopback else none
  listenThread := { self := 0 }
  mEpollFd := 4

def named : Answers where
  getsockname := inheriting.bound
  getsocknameAgain := inheriting.bound
  socket := 8

/-- The inherited socket is taken over and then closed, and `InitListenServer`
returns `true`. -/
theorem not_usable_of_inherited :
    ∃ listener,
      (initListenServer loopbackAton loopbackConfig (some "7") named inheriting).2 =
        (some listener, true) ∧
      ¬ Usable loopbackAton "127.0.0.1" 8080
        (initListenServer loopbackAton loopbackConfig (some "7") named inheriting).1
        listener.mFd := by
  have observed :
      (initListenServer loopbackAton loopbackConfig (some "7") named inheriting).2.2 = true ∧
      (initListenServer loopbackAton loopbackConfig (some "7") named inheriting).2.1.map
        (fun listener =>
          (initListenServer loopbackAton loopbackConfig (some "7") named
            inheriting).1.kernel.opened listener.mFd) = some false := by
    decide +kernel
  obtain ⟨returns, closed⟩ := observed
  obtain ⟨listener, listenerEq, notOpen⟩ := Option.map_eq_some_iff.mp closed
  refine ⟨listener, Prod.ext listenerEq returns, fun usable => ?_⟩
  rw [usable.opened] at notOpen
  contradiction

end NginxFastcgi.Service.ListenServer
