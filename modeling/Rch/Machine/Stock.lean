import Rch.Api.Ledger
import Rch.Kit.Machine

/-!
# The stock tables as a machine

The three stock tables start empty, and every write the server makes to them
goes through one of the ledger's functions. An event is one such call, with
any arguments at all: any batch of moves, any cells locked, any holds. What is
proved of this machine therefore holds under whatever the services above it
do, and the services are shown to stay inside it.

There are two of it. In the first a batch is added up in decimals, and the
services run on that one; in the second it is added up as the code does it, in
doubles, and a call takes any number a double can be.
-/

namespace Rch

open Kit

inductive StockEvent
  | lock (cells : List Cell)
  | post (moves : List Move)
  | hold (rows : List Hold)
  | release (ticketId : String) (at_ : Instant)
  | rebuild

def stockStep (s : Stock) : StockEvent → Option Stock
  | .lock cells => some (lockBalances s cells)
  | .post moves => some (postMoves s moves)
  | .hold rows => (reserve s rows).toOption
  | .release ticketId at_ => some (releaseForTicket s ticketId at_)
  | .rebuild => some (rebuildBalances s)

def stockMachine : Machine Stock StockEvent where
  init s := s = Stock.empty
  step := stockStep

namespace Doubles

def stockStep (s : Stock) : StockEvent → Option Stock
  | .post moves => postMoves s moves
  | .hold rows => Rch.stockStep s (.hold (rows.map fun r =>
      { r with qty := round3 (.ofRat r.qty) }))
  | e => Rch.stockStep s e

def stockMachine : Machine Stock StockEvent where
  init s := s = Stock.empty
  step := stockStep

end Doubles

end Rch
