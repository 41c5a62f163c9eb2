import Fandomchain.Library.Run
import Fandomchain.Library.ConstantProduct
import Fandomchain.Library.Int64
import Fandomchain.Library.OrderedMap
import Fandomchain.Tokenfactory.Types
import Fandomchain.Tokenfactory.Keeper
import Fandomchain.Tokenfactory.BondingCurve
import Fandomchain.Tokenfactory.MsgServer
import Fandomchain.Proof.Handlers
import Fandomchain.Proof.Effects
import Fandomchain.Tokenfactory.Ledger
import Fandomchain.Proof.Solvency
import Fandomchain.Proof.Supply
import Fandomchain.Proof.Positive
import Fandomchain.Proof.Range
import Fandomchain.Proof.Conservation
import Fandomchain.Tokenfactory.Genesis
import Fandomchain.Tokenfactory.Query
import Fandomchain.Proof.Estimates
import Fandomchain.Proof.RoundTrip
import Fandomchain.Proof.Session
import Fandomchain.Proof.Exit
import Fandomchain.Proof.Formula
import Fandomchain.Proof.Split
import Fandomchain.Proof.Price
import Fandomchain.Proof.Accounting
import Fandomchain.Proof.Frame
import Fandomchain.Proof.Independence
import Fandomchain.Proof.Panic
import Fandomchain.Library.Rounding
import Fandomchain.Proof.Impact
import Fandomchain.Library.Varint
import Fandomchain.Library.Skip
import Fandomchain.Library.Message
import Fandomchain.Library.Fields
import Fandomchain.Tokenfactory.Codec
import Fandomchain.Proof.Codec
import Fandomchain.Proof.ModuleIbc
import Fandomchain.Library.Utf8
import Fandomchain.Tokenfactory.Store
import Fandomchain.Proof.Store
import Fandomchain.Proof.Restart
import Fandomchain.Proof.Delivery
import Fandomchain.Proof.QueryServer
import Fandomchain.Proof.TxClient
import Fandomchain.Proof.CreateToken
import Fandomchain.Proof.Simulation
import Fandomchain.Proof.Books
import Fandomchain.Library.Exchange
import Fandomchain.Proof.Refinement
import Fandomchain.Proof.Depth
