import OrderBook.Command
import OrderBook.Config.Basic
import OrderBook.Config.File
import OrderBook.Config.FileTree
import OrderBook.Decimal.Arithmetic
import OrderBook.Decimal.Basic
import OrderBook.Decimal.Division
import OrderBook.Decimal.Integral
import OrderBook.Decimal.Shortest
import OrderBook.Decimal.Text
import OrderBook.Error
import OrderBook.Flow.Arena
import OrderBook.Flow.Graph
import OrderBook.Flow.OrderNodes
import OrderBook.Json.Basic
import OrderBook.Json.Fields
import OrderBook.Json.Number
import OrderBook.Json.Read
import OrderBook.Json.Token
import OrderBook.Json.Write
import OrderBook.Keyed
import OrderBook.Main
import OrderBook.Order.Basic
import OrderBook.Order.Intersection
import OrderBook.Order.Json
import OrderBook.Order.Validation
import OrderBook.Policy.Basic
import OrderBook.Policy.Chain
import OrderBook.Price.Amount
import OrderBook.Price.Curve
import OrderBook.Price.Intersection
import OrderBook.Proofs.CountSums
import OrderBook.Proofs.Decimal.Defined
import OrderBook.Proofs.Decimal.Normal
import OrderBook.Proofs.Flow.Listing
import OrderBook.Proofs.Flow.Maximal
import OrderBook.Proofs.Flow.Overflow
import OrderBook.Proofs.Flow.Removal
import OrderBook.Proofs.Json.Pretty
import OrderBook.Proofs.Json.Reading
import OrderBook.Proofs.Json.Records
import OrderBook.Proofs.Json.Scanning
import OrderBook.Proofs.Order.Contribution
import OrderBook.Proofs.Order.Json
import OrderBook.Proofs.Policy.Directions
import OrderBook.Proofs.Price.Amount
import OrderBook.Proofs.Price.Apart
import OrderBook.Proofs.Price.Auctions
import OrderBook.Proofs.Price.FlatPrices
import OrderBook.Proofs.Price.Instants
import OrderBook.Proofs.Query.Cursor
import OrderBook.Proofs.Query.Narrowing
import OrderBook.Proofs.Query.Ordering
import OrderBook.Proofs.Query.Results
import OrderBook.Proofs.Record.Ids
import OrderBook.Proofs.Record.Json
import OrderBook.Proofs.Search.BestPairing
import OrderBook.Proofs.Search.BruteForce
import OrderBook.Proofs.Search.Building
import OrderBook.Proofs.Search.Capacity
import OrderBook.Proofs.Search.Discovery
import OrderBook.Proofs.Search.Embedding
import OrderBook.Proofs.Search.ExactFill
import OrderBook.Proofs.Search.FirstCome
import OrderBook.Proofs.Search.Incompatible
import OrderBook.Proofs.Search.Lanes
import OrderBook.Proofs.Search.Leftovers
import OrderBook.Proofs.Search.NoFailure
import OrderBook.Proofs.Search.NoOverflow
import OrderBook.Proofs.Search.OldestFirst
import OrderBook.Proofs.Search.OneByOne
import OrderBook.Proofs.Search.OrderOfService
import OrderBook.Proofs.Search.Pairings
import OrderBook.Proofs.Search.Passes
import OrderBook.Proofs.Search.PinnedBooks
import OrderBook.Proofs.Search.Pool
import OrderBook.Proofs.Search.Prices
import OrderBook.Proofs.Search.QueuePasses
import OrderBook.Proofs.Search.Rearranged
import OrderBook.Proofs.Search.Repeats
import OrderBook.Proofs.Search.Rounds
import OrderBook.Proofs.Search.Scan
import OrderBook.Proofs.Search.ServedLanes
import OrderBook.Proofs.Search.Serving
import OrderBook.Proofs.Search.SilentCandidates
import OrderBook.Proofs.Store.Paging
import OrderBook.Proofs.Text.Hex
import OrderBook.Query.Basic
import OrderBook.Query.Json
import OrderBook.Query.Token
import OrderBook.Record.Basic
import OrderBook.Record.Digest
import OrderBook.Record.Json
import OrderBook.Search.Engine
import OrderBook.Search.FlowPass
import OrderBook.Search.Json
import OrderBook.Search.OneToMany
import OrderBook.Search.OneToOne
import OrderBook.Search.Pairing
import OrderBook.Store.Book
import OrderBook.Store.Source
import OrderBook.Text.Blank
import OrderBook.Text.Bytes
import OrderBook.Text.Digits
import OrderBook.Text.Hex
import OrderBook.Text.Hidden
import OrderBook.Text.Quoted
import OrderBook.Toml.Document
import OrderBook.Toml.Scalar
import OrderBook.Toml.Text
import OrderBook.Toml.Value
