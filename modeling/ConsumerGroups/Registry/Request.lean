-- Requests: what a registry can be asked to do, with everything that comes with it.
import ConsumerGroups.Registry.Register
import ConsumerGroups.Registry.Sweep

set_option autoImplicit false

namespace ConsumerGroups

/-- What a registry is asked to do. -/
inductive Request where
  /-- a client registers; a name with a flaw is turned down, or only passed over -/
  | register (strict : Bool) (q : Registration)
  | leave (group : String) (client : Client) (announce : Bool)
  | channelClosed (address : String) (id : UInt64)
  | sweep
  | addListener (listener : Nat)
  | setClock (clock : Clock)
deriving DecidableEq

namespace Registry

variable {Ω : Type}

/-- Does what is asked. What comes back is its `reply`. -/
def serve (env : Surroundings Ω) (request : Request) (r : Registry Ω) : Registry Ω :=
  match request with
  | .register true q => (r.tryRegister env q).1
  | .register false q => (r.register env q).1
  | .leave group client announce => r.leave env group client announce
  | .channelClosed address id => (r.channelClosed env address id).1
  | .sweep => (r.sweep env).1
  | .addListener l => r.addListener l
  | .setClock clock => { r with clock }

/-- However a registration is asked for, it is an attempt, and what the log may say of it. -/
theorem serve_register (env : Surroundings Ω) (strict : Bool) (q : Registration)
    (r : Registry Ω) :
    ∃ lines, r.serve env (.register strict q) = (r.tryRegister env q).1.logAll lines := by
  cases strict with
  | true => exact ⟨[], rfl⟩
  | false => exact fst_register env q r

/-- What comes back from a request. -/
inductive Reply where
  | nothing
  | tried (result : Returned (Except Rejection Bool))
  | registered (result : Returned Bool)
  | closed (result : Bool)
  | swept (result : Returned Nat)

def reply (env : Surroundings Ω) (request : Request) (r : Registry Ω) : Reply :=
  match request with
  | .register true q => .tried (r.tryRegister env q).2
  | .register false q => .registered (r.register env q).2
  | .channelClosed address id => .closed (r.channelClosed env address id).2
  | .sweep => .swept (r.sweep env).2
  | _ => .nothing

def serveAll (env : Surroundings Ω) : List Request → Registry Ω → Registry Ω
  | [], r => r
  | request :: rest, r => serveAll env rest (r.serve env request)

end Registry

end ConsumerGroups
