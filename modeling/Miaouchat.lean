import Miaouchat.Acks
import Miaouchat.Agreement
import Miaouchat.Batches
import Miaouchat.Buffer
import Miaouchat.Cancel
import Miaouchat.Chat
import Miaouchat.Collisions
import Miaouchat.DataKey
import Miaouchat.Deadlock
import Miaouchat.Display
import Miaouchat.Emptying
import Miaouchat.Ends
import Miaouchat.Flooding
import Miaouchat.Handshake
import Miaouchat.History
import Miaouchat.Hosts
import Miaouchat.Indexing
import Miaouchat.Learning
import Miaouchat.LockBalance
import Miaouchat.Lookup
import Miaouchat.MapWalks
import Miaouchat.Memory
import Miaouchat.Naming
import Miaouchat.Nonces
import Miaouchat.OneStatus
import Miaouchat.Ownership
import Miaouchat.Padding
import Miaouchat.Passes
import Miaouchat.Races
import Miaouchat.Reencode
import Miaouchat.Retries
import Miaouchat.Sequence
import Miaouchat.Slots
import Miaouchat.Standstill
import Miaouchat.Strangers
import Miaouchat.Trailing
import Miaouchat.Transfer
