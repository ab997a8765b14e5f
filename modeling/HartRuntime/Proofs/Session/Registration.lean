import HartRuntime.Proofs.Session.Run

namespace HartRuntime

open Trap

variable {n : Nat}

namespace Session

end Session

end HartRuntime
