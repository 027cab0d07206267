import IslandSurvival.Theorems.Tenants
import IslandSurvival.Theorems.Loading
import IslandSurvival.Theorems.Awaited
import IslandSurvival.Theorems.Starts
import IslandSurvival.Theorems.Exits
import IslandSurvival.Theorems.RingUse
import IslandSurvival.Theorems.Reassembly
import IslandSurvival.Theorems.Counters
import IslandSurvival.Theorems.Seats
import IslandSurvival.Theorems.Iterators
import IslandSurvival.Theorems.Pipelined
import IslandSurvival.Theorems.Batches
import IslandSurvival.Theorems.Punctual
import IslandSurvival.Theorems.Sends
import IslandSurvival.Theorems.Refusals
import IslandSurvival.Theorems.Relays
import IslandSurvival.Theorems.Replies
import IslandSurvival.Theorems.Lobby
import IslandSurvival.Theorems.Broadcasts
import IslandSurvival.Theorems.Timeouts
import IslandSurvival.Theorems.Teams
import IslandSurvival.Theorems.Isolation
import IslandSurvival.Theorems.Operations
import IslandSurvival.Theorems.Lockstep
import IslandSurvival.Theorems.Encodings
import IslandSurvival.Theorems.Statements
import IslandSurvival.Theorems.Receiving
import IslandSurvival.Theorems.Parsing
import IslandSurvival.Model.Main
import IslandSurvival.Theorems.Silence
import IslandSurvival.Theorems.Sessions
import IslandSurvival.Theorems.Causes
import IslandSurvival.Theorems.Crashes
import IslandSurvival.Theorems.Traffic
