import PrivacyShield.Contract.Types
import PrivacyShield.Lib.PrefixCode

/-!
# The Soroban host, as far as the contract uses it

Contract code runs in a frame: it asks the host for hashes and serialised addresses, asks which
addresses authorized the call, reads and writes instance storage and publishes events. It ends with
a value, with a `ShieldError`, or with a trap: `require_auth` traps on a missing authorization and,
under the release profile's `overflow-checks = true`, an unchecked `-=` traps when the result
leaves the `i128` range.

A computation that ends in an error or a trap keeps the storage it had at that point: the host's
rollback of failed calls is not part of the model. The contract never needs it
(`dispatch_error`).
-/

namespace PrivacyShield.Contract

open PrivacyShield.Lib

/-- The pure services of the host: SHA-256 and the XDR encoding of an address. -/
structure Host (Address : Type) where
  sha256 : Bytes → BytesN 32
  toXdr : Address → Bytes

/-- Address encodings are injective and prefix-free. -/
def Host.XdrPrefixFree {Address : Type} (host : Host Address) : Prop := PrefixFree host.toXdr

/-- A published event. -/
structure Event (Address : Type) where
  topics : String × Address × Address
  data : BytesN 32
  deriving DecidableEq

/-- The contract's instance storage. -/
abbrev Storage (Address : Type) := Finmap fun k : DataKey Address => k.Value

/-- What contract code can change: the instance storage and the event stream, oldest first. -/
structure Env (Address : Type) where
  storage : Storage Address
  events : List (Event Address)

/-- Why a call is aborted. -/
inductive Trap where
  | auth
  | overflow
  deriving DecidableEq

/-- The ways a call ends without a value. -/
inductive Fault where
  | err (e : ShieldError)
  | trap (t : Trap)
  deriving DecidableEq

/-- What a call runs under: the host and the addresses that authorized the call. -/
structure Frame (Address : Type) where
  host : Host Address
  auth : Address → Bool

/-- Contract code. State changes made before a fault are kept. -/
abbrev ContractM (Address : Type) := ReaderT (Frame Address) (ExceptT Fault (StateM (Env Address)))

namespace Env

variable {Address : Type}

/-- Empty instance storage, no events. -/
def empty : Env Address := ⟨∅, []⟩

/-- Publish an event. -/
def emit (env : Env Address) (event : Event Address) : Env Address :=
  { env with events := env.events ++ [event] }

variable [DecidableEq Address]

/-- Read the entry under a key. -/
def lookup (env : Env Address) (key : DataKey Address) : Option key.Value :=
  env.storage.lookup key

/-- Write the entry under a key. -/
def put (env : Env Address) (key : DataKey Address) (value : key.Value) : Env Address :=
  { env with storage := env.storage.insert key value }

@[simp] theorem lookup_empty (key : DataKey Address) : (empty : Env Address).lookup key = none :=
  Finmap.lookup_empty key

@[simp] theorem lookup_emit (env : Env Address) (event : Event Address) (key : DataKey Address) :
    (env.emit event).lookup key = env.lookup key := rfl

@[simp] theorem lookup_put_self (env : Env Address) (key : DataKey Address) (value : key.Value) :
    (env.put key value).lookup key = some value :=
  Finmap.lookup_insert _

@[simp] theorem lookup_put_of_ne (env : Env Address) {key key' : DataKey Address}
    (value : key.Value) (h : key' ≠ key) : (env.put key value).lookup key' = env.lookup key' :=
  Finmap.lookup_insert_of_ne _ h

/-- Two environments with the same entries have the same storage. -/
theorem storage_ext {env env' : Env Address} (h : ∀ key, env.lookup key = env'.lookup key) :
    env.storage = env'.storage :=
  Finmap.ext_lookup h

end Env

/-! ## Host calls -/

section HostCalls

variable {Address : Type} {α : Type}

/-- `return Err(e)`. -/
def fail (e : ShieldError) : ContractM Address α := throw (.err e)

/-- `option.ok_or(e)?`. -/
def okOr (option : Option α) (e : ShieldError) : ContractM Address α :=
  match option with
  | some a => pure a
  | none => fail e

/-- `x - y` with overflow checks on. -/
def subOrTrap (x y : I128) : ContractM Address I128 :=
  match x.checkedSub y with
  | some z => pure z
  | none => throw (.trap .overflow)

/-- `address.require_auth()`. -/
def requireAuth (address : Address) : ContractM Address Unit := do
  let frame ← read
  if frame.auth address then pure () else throw (.trap .auth)

/-- `env.crypto().sha256(bytes)`. -/
def sha256 (bytes : Bytes) : ContractM Address (BytesN 32) := do
  return (← read).host.sha256 bytes

/-- `address.to_xdr(env)`. -/
def toXdr (address : Address) : ContractM Address Bytes := do
  return (← read).host.toXdr address

/-- `env.events().publish(topics, data)`. -/
def publish (topics : String × Address × Address) (data : BytesN 32) : ContractM Address Unit :=
  modify fun env => env.emit ⟨topics, data⟩

variable [DecidableEq Address]

/-- `env.storage().instance().get(key)`. -/
def storageGet (key : DataKey Address) : ContractM Address (Option key.Value) := do
  return (← get).lookup key

/-- `env.storage().instance().has(key)`. -/
def storageHas (key : DataKey Address) : ContractM Address Bool := do
  return ((← get).lookup key).isSome

/-- `env.storage().instance().set(key, value)`. -/
def storageSet (key : DataKey Address) (value : key.Value) : ContractM Address Unit :=
  modify fun env => env.put key value

end HostCalls

/-! ## Execution -/

section Exec

variable {Address : Type} {α β : Type} {frame : Frame Address} {env : Env Address}

/-- Run contract code in a frame, from an environment. -/
def exec (m : ContractM Address α) (frame : Frame Address) (env : Env Address) :
    Except Fault α × Env Address :=
  m frame env

theorem exec_bind (m : ContractM Address α) (f : α → ContractM Address β) :
    exec (m >>= f) frame env =
      match exec m frame env with
      | (.ok a, env') => exec (f a) frame env'
      | (.error e, env') => (.error e, env') := by
  have hbind : exec (m >>= f) frame env =
      ExceptT.bindCont (fun a => f a frame) (exec m frame env).1 (exec m frame env).2 := rfl
  rw [hbind]
  rcases exec m frame env with ⟨r, env'⟩
  cases r <;> rfl

/-- What follows a computation that returns runs on what it returns. -/
theorem exec_bind_of_ok {m : ContractM Address α} {a : α} {env' : Env Address}
    (h : exec m frame env = (.ok a, env')) (f : α → ContractM Address β) :
    exec (m >>= f) frame env = exec (f a) frame env' := by
  rw [exec_bind, h]

/-- Nothing follows a fault. -/
theorem exec_bind_of_error {m : ContractM Address α} {e : Fault} {env' : Env Address}
    (h : exec m frame env = (.error e, env')) (f : α → ContractM Address β) :
    exec (m >>= f) frame env = (.error e, env') := by
  rw [exec_bind, h]

/-- A handler runs on the fault, from the environment the fault left. -/
theorem exec_tryCatch (m : ContractM Address α)
    (handler : Fault → ContractM Address α) :
    exec (try m catch f => handler f) frame env =
      match exec m frame env with
      | (.ok a, env') => (.ok a, env')
      | (.error f, env') => exec (handler f) frame env' := by
  have htry : exec (try m catch f => handler f) frame env =
      (ExceptT.tryCatch (m frame) fun f => handler f frame) env := rfl
  have hm : m frame env = exec m frame env := rfl
  rw [htry]
  unfold ExceptT.tryCatch
  simp only [ExceptT.mk, bind, StateT.bind, hm]
  rcases exec m frame env with ⟨_ | a, env'⟩
  · rfl
  · rfl

@[simp] theorem exec_pure (a : α) :
    exec (pure a : ContractM Address α) frame env = (.ok a, env) := rfl

theorem exec_ite (c : Prop) [Decidable c] (m m' : ContractM Address α) :
    exec (if c then m else m') frame env = if c then exec m frame env else exec m' frame env := by
  split <;> rfl

@[simp] theorem exec_fail_bind (e : ShieldError) (f : α → ContractM Address β) :
    exec (fail e >>= f) frame env = (.error (.err e), env) :=
  exec_bind_of_error rfl f

@[simp] theorem exec_requireAuth_bind (a : Address) (f : Unit → ContractM Address β) :
    exec (requireAuth a >>= f) frame env =
      if frame.auth a then exec (f ()) frame env else (.error (.trap .auth), env) := by
  have hauth : exec (requireAuth a) frame env =
      exec (if frame.auth a then pure () else throw (.trap .auth)) frame env := rfl
  split
  · next h =>
    rw [exec_ite, if_pos h] at hauth
    exact exec_bind_of_ok hauth f
  · next h =>
    rw [exec_ite, if_neg h] at hauth
    exact exec_bind_of_error hauth f

@[simp] theorem exec_okOr_bind (o : Option α) (e : ShieldError) (f : α → ContractM Address β) :
    exec (okOr o e >>= f) frame env =
      match o with
      | some a => exec (f a) frame env
      | none => (.error (.err e), env) := by
  cases o
  · exact exec_fail_bind e f
  · exact exec_bind_of_ok rfl f

@[simp] theorem exec_subOrTrap_bind (x y : I128) (f : I128 → ContractM Address β) :
    exec (subOrTrap x y >>= f) frame env =
      match x.checkedSub y with
      | some z => exec (f z) frame env
      | none => (.error (.trap .overflow), env) := by
  unfold subOrTrap
  cases x.checkedSub y
  · exact exec_bind_of_error rfl f
  · exact exec_bind_of_ok rfl f

@[simp] theorem exec_sha256_bind (bytes : Bytes) (f : BytesN 32 → ContractM Address β) :
    exec (sha256 bytes >>= f) frame env = exec (f (frame.host.sha256 bytes)) frame env :=
  exec_bind_of_ok rfl f

@[simp] theorem exec_toXdr_bind (a : Address) (f : Bytes → ContractM Address β) :
    exec (toXdr a >>= f) frame env = exec (f (frame.host.toXdr a)) frame env :=
  exec_bind_of_ok rfl f

@[simp] theorem exec_publish_bind (topics : String × Address × Address) (data : BytesN 32)
    (f : Unit → ContractM Address β) :
    exec (publish topics data >>= f) frame env = exec (f ()) frame (env.emit ⟨topics, data⟩) :=
  exec_bind_of_ok rfl f

variable [DecidableEq Address]

@[simp] theorem exec_storageGet_bind (key : DataKey Address)
    (f : Option key.Value → ContractM Address β) :
    exec (storageGet key >>= f) frame env = exec (f (env.lookup key)) frame env :=
  exec_bind_of_ok rfl f

@[simp] theorem exec_storageHas_bind (key : DataKey Address) (f : Bool → ContractM Address β) :
    exec (storageHas key >>= f) frame env = exec (f (env.lookup key).isSome) frame env :=
  exec_bind_of_ok rfl f

@[simp] theorem exec_storageSet_bind (key : DataKey Address) (value : key.Value)
    (f : Unit → ContractM Address β) :
    exec (storageSet key value >>= f) frame env = exec (f ()) frame (env.put key value) :=
  exec_bind_of_ok rfl f

end Exec

end PrivacyShield.Contract
