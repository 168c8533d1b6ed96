import Rch.Kit.Decimal
import Rch.Kit.Table
import Rch.Kit.Machine
import Rch.Kit.Outcome
import Rch.Domain.Vocabulary
import Rch.Domain.Transitions
import Rch.Domain.Numbers
import Rch.Kit.Keyed
import Rch.Domain.Ids
import Rch.Domain.Master
import Rch.Domain.Kitchen
import Rch.Domain.Approval
import Rch.Domain.Availability
import Rch.Domain.Party
import Rch.Domain.Billing
import Rch.Domain.Credit
import Rch.Domain.Receipt
import Rch.Domain.Qr
import Rch.Api.Refusal
import Rch.Domain.Json
import Rch.Api.Trail
import Rch.Api.Write
import Rch.Audit.Drain
import Rch.Api.Idempotency
import Rch.Api.Ledger
import Rch.Api.Db
import Rch.Api.Tickets
import Rch.Api.Requests
import Rch.Api.Production
import Rch.Api.ShopAsks
import Rch.Api.Adjustments
import Rch.Api.Grn
import Rch.Api.Pos
import Rch.Api.Receivables
import Rch.Domain.Permissions
import Rch.Api.RateCard
import Rch.Api.Qr
import Rch.Api.RefundWorker
import Rch.Api.Channels
import Rch.Machine.Stock
import Rch.Machine.Service
import Rch.Machine.Checkout
import Rch.Proofs.Accounts
import Rch.Proofs.LedgerEffect
import Rch.Proofs.LedgerIsStock
import Rch.Kit.Shelf
import Rch.Kit.Transactions
import Rch.Kit.Deadlock
import Rch.Kit.Voucher
import Rch.Machine.Accounts
import Rch.Api.Register
import Rch.Machine.Registers
import Rch.Machine.Sessions
import Rch.Machine.Outbox
import Rch.Machine.Keys
import Rch.Machine.Payouts
import Rch.Machine.PriceWrites
import Rch.Machine.AccessCache
import Rch.Machine.Window
import Rch.Kit.Takings
import Rch.Proofs.TicketEffect
import Rch.Proofs.CorrectionEffect
import Rch.Proofs.SaleEffect
import Rch.Proofs.QrEffect
import Rch.Proofs.DocumentEffect
import Rch.Proofs.Frame
import Rch.Proofs.ShelfChange
import Rch.Proofs.LinesKept
import Rch.Proofs.ShelfSafety
import Rch.Proofs.KeyShapes
import Rch.Proofs.OrderCore
import Rch.Proofs.Takings
import Rch.Proofs.CapturesAccounted
import Rch.Proofs.OwedInFull
import Rch.Proofs.TicketLink
import Rch.Proofs.OneTicket
import Rch.Proofs.StockInTransit
import Rch.Proofs.RateShown
import Rch.Proofs.AccountSteps
import Rch.Proofs.CreditCeiling
import Rch.Proofs.SettledBills
import Rch.Proofs.OneZ
import Rch.Proofs.Revocation
import Rch.Proofs.TrailOnce
import Rch.Proofs.DrainOnce
import Rch.Proofs.OneCommit
import Rch.Proofs.PaidOnce
import Rch.Proofs.RetryDeaf
import Rch.Proofs.LockOrder
import Rch.Proofs.AccessCurrent
import Rch.Proofs.TicketShut
import Rch.Proofs.RateTrail
import Rch.Proofs.LateAnswers
import Rch.Proofs.HeardChanges
import Rch.Proofs.PricesApart
import Rch.Proofs.OwnScope
import Rch.Machine.Catalogue
import Rch.Proofs.Postings
import Rch.Kit.Waterfall
import Rch.Domain.Claims
import Rch.Domain.Requisition
import Rch.Screen.Progress
import Rch.Proofs.ClaimsGiven
import Rch.Proofs.ClaimsMeet
import Rch.Proofs.SettlementLaid
import Rch.Proofs.ApprovalCapped
import Rch.Proofs.BillArithmetic
import Rch.Proofs.CreditApart
import Rch.Machine.Voids
import Rch.Proofs.SaleMoves
import Rch.Proofs.VoidSteps
import Rch.Proofs.VoidOnce
import Rch.Api.Requisitions
import Rch.Api.Purchasing
import Rch.Machine.Procurement
import Rch.Proofs.BuyingSteps
import Rch.Proofs.Instalments
import Rch.Proofs.ClaimsFunded
import Rch.Proofs.ClaimsAddUp
import Rch.Proofs.ReceiptsCapped
import Rch.Proofs.Masked
import Rch.Domain.Text
import Rch.Kit.Csv
import Rch.Api.PayerFile
import Rch.Proofs.PayerFileBack
import Rch.Domain.Locations
import Rch.Proofs.OutletKeys
import Rch.Screen.Selectors
import Rch.Proofs.IndexedScreens
import Rch.Domain.Doors
import Rch.Proofs.DoorAnswers
import Rch.Api.Reports
import Rch.Proofs.WindowsChain
import Rch.Proofs.EveryBillOnce
import Rch.Api.ItemRecords
import Rch.Proofs.KitchenDecides
import Rch.Machine.Attempts
import Rch.Proofs.SignInBudget
import Rch.Kit.Outputs
import Rch.Proofs.RotatesOnce
import Rch.Proofs.InstalmentsCapped
import Rch.Proofs.KitchenBare
import Rch.Proofs.CatalogueSteps
import Rch.Proofs.OrdersCarried
import Rch.Proofs.NeverCounted
import Rch.Kit.Double
import Rch.Domain.NextNumbers
import Rch.Machine.Numbering
import Rch.Proofs.NumbersApart
import Rch.Kit.Utf8
import Rch.Kit.Framing
import Rch.Domain.Numerals
import Rch.Domain.JsonText
import Rch.Screen.Events
import Rch.Proofs.FramesSurvive
import Rch.Screen.Till
import Rch.Proofs.TillKept
import Rch.Machine.Placing
import Rch.Proofs.PlacedOnce
import Rch.Proofs.OncePerCheckout
import Rch.Machine.Browser
import Rch.Proofs.NeverPresentedTwice
import Rch.Screen.SignOut
import Rch.Proofs.SignOutFinal
import Rch.Api.Staff
import Rch.Proofs.StaffInOrder
import Rch.Kit.Calendar
import Rch.Kit.Like
import Rch.Kit.Keyset
import Rch.Audit.Log
import Rch.Screen.AuditTab
import Rch.Proofs.AuditListed
import Rch.Proofs.AuditExported
import Rch.Proofs.AuditQueries
import Rch.Proofs.AuditCsvBack
import Rch.Screen.OrderPage
import Rch.Proofs.OrderRequests
import Rch.Proofs.StatusHeard
import Rch.Machine.Shifts
import Rch.Proofs.ShiftWindows
import Rch.Machine.ItemCodes
import Rch.Proofs.CodesApart
import Rch.Machine.Support
import Rch.Proofs.DeskInOrder
