import Belnet.Iwp.Operations

/-!
# The order in which messages are sent again

`Pump` puts the messages to flush into a `std::priority_queue`, which gives the largest one first.
-/

namespace Belnet.Iwp
open List OutboundMessage World UInt64
variable {σ : Type} {env : Env σ} {t : Clock}

def World.queued (t : Clock) (w : World σ) : List (UInt64 × OutboundMessage) :=
  (w.tx.txMsgs.toList.filter fun m => m.2.shouldFlush t.now).insertionSort fun a b => !a.2.lt b.2

variable (w : World σ)

namespace Sample

end Sample

open Sample

end Belnet.Iwp
