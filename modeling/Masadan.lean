import Masadan.StatusLaw
import Masadan.VisitFinality
import Masadan.OrderTotals
import Masadan.Seating
import Masadan.Settlement
import Masadan.PaidOrders
import Masadan.Replay
import Masadan.LostTickets
import Masadan.History
import Masadan.Deliveries
import Masadan.SentFinal
import Masadan.ClaimedOnce
import Masadan.StaffAdmin
import Masadan.StaffAuth
import Masadan.Accounts
import Masadan.LastAdmin
import Masadan.Passwords
import Masadan.Revocation
import Masadan.Tokens
import Masadan.OneTicket
import Masadan.RateLimit
import Masadan.QrCodes
import Masadan.QrReset
import Masadan.BridgeTurns
import Masadan.OwnClaim
import Masadan.Agent
import Masadan.HealthyAgent
import Masadan.Printed
import Masadan.Pc857
import Masadan.TicketNumbers
import Masadan.OrderCaps
import Masadan.SettledPhones
import Masadan.OneVisit
import Masadan.OneParty
import Masadan.Menu
import Masadan.MenuAdmin
import Masadan.MenuIsolation
import Masadan.Cart
import Masadan.PhoneServer
import Masadan.ShownPrices
import Masadan.ClearedCart
import Masadan.OneOrder
import Masadan.Eviction
import Masadan.ScanFloods
import Masadan.ValidScans
import Masadan.OldCodes
import Masadan.PromiseCache
import Masadan.MenuCache
import Masadan.EditLedger
import Masadan.Retries
import Masadan.SixPhones
import Masadan.Deserted
import Masadan.MaxKeys
import Masadan.WriteBudget
import Masadan.LastSeen
import Masadan.Choices
import Masadan.Orderable
import Masadan.MoneyRange
import Masadan.CartTaken
import Masadan.Woven
import Masadan.TicketBytes
import Masadan.JsNumber
import Masadan.Pagination
import Masadan.Paging
import Masadan.OrderLog
import Masadan.Calendar
import Masadan.Reporting
import Masadan.PosixPath
import Masadan.Uploads
import Masadan.OrderedMap
import Masadan.BillSplit
import Masadan.BillStamps
import Masadan.DeskBoard
import Masadan.LineViews
import Masadan.Retention
import Masadan.Csv
import Masadan.Export
import Masadan.Changes
import Masadan.Routes
import Masadan.House
import Masadan.HouseSteps
import Masadan.HouseCalls
import Masadan.HouseHandlers
import Masadan.HouseStaff
import Masadan.HouseLaws
import Masadan.Tells
import Masadan.Cards
import Masadan.Board
import Masadan.Lockstep
import Masadan.OwnReads
import Masadan.UsbPrint
