import Sosedi.Accounts.Blocks
import Sosedi.Accounts.ExportPrivacy
import Sosedi.Accounts.Facts
import Sosedi.Accounts.Listings
import Sosedi.Accounts.Moderation
import Sosedi.Accounts.Removal
import Sosedi.Accounts.Steps
import Sosedi.Accounts.UserDataExport
import Sosedi.Async.EventLoop
import Sosedi.Auth.AdminAuthSafety
import Sosedi.Auth.AdminAuthService
import Sosedi.Auth.AuthContract
import Sosedi.Auth.AuthInvariant
import Sosedi.Auth.AuthRuns
import Sosedi.Auth.AuthSafety
import Sosedi.Auth.AuthScripts
import Sosedi.Auth.AuthService
import Sosedi.Auth.AuthSystem
import Sosedi.Auth.Base32
import Sosedi.Auth.CodeUse
import Sosedi.Auth.Guesses
import Sosedi.Auth.OneTimeCodes
import Sosedi.Auth.Revocation
import Sosedi.Auth.Rotation
import Sosedi.Auth.SecondFactors
import Sosedi.Auth.SessionSteps
import Sosedi.Auth.Sessions
import Sosedi.Auth.StepUps
import Sosedi.Auth.Versions
import Sosedi.Auth.Visibility
import Sosedi.Bookings.Calendar
import Sosedi.Bookings.Cancelled
import Sosedi.Bookings.Completed
import Sosedi.Bookings.Handover
import Sosedi.Bookings.History
import Sosedi.Bookings.Progress
import Sosedi.Bookings.RentalPeriod
import Sosedi.Bookings.Requests
import Sosedi.Bookings.SnapshotJson
import Sosedi.Bookings.SnapshotRoundTrip
import Sosedi.Bookings.SnapshotSoundness
import Sosedi.Catalogue.Availability
import Sosedi.Catalogue.Filters
import Sosedi.Catalogue.ItemsCatalogue
import Sosedi.Catalogue.Locations
import Sosedi.Chat.BookingMessageService
import Sosedi.Chat.ChatContract
import Sosedi.Chat.ChatPages
import Sosedi.Chat.ChatRuns
import Sosedi.Chat.ChatSystem
import Sosedi.Chat.SendingLimits
import Sosedi.Data.Attempts
import Sosedi.Data.Gregorian
import Sosedi.Data.KeysetPages
import Sosedi.Data.Keyspace
import Sosedi.Data.LikePatterns
import Sosedi.Data.OrderedReads
import Sosedi.Data.Patterns
import Sosedi.Data.RateWindows
import Sosedi.Data.Regrouping
import Sosedi.Data.SignificantDigits
import Sosedi.Data.Table
import Sosedi.Data.Windows
import Sosedi.Deals.Actions
import Sosedi.Deals.Agreement
import Sosedi.Deals.Batch
import Sosedi.Deals.Constants
import Sosedi.Deals.Contract
import Sosedi.Deals.Fees
import Sosedi.Deals.Fields
import Sosedi.Deals.Frames
import Sosedi.Deals.Local
import Sosedi.Deposits.Balanced
import Sosedi.Deposits.Charges
import Sosedi.Deposits.ClientKeys
import Sosedi.Deposits.Decisions
import Sosedi.Deposits.Disputes
import Sosedi.Deposits.Ledger
import Sosedi.Deposits.Machine
import Sosedi.Deposits.Money
import Sosedi.Deposits.Operations
import Sosedi.Deposits.Progress
import Sosedi.Deposits.Worker
import Sosedi.Domain.Accounts
import Sosedi.Domain.Basics
import Sosedi.Domain.BookingPeriod
import Sosedi.Domain.BookingTerms
import Sosedi.Domain.Database
import Sosedi.Domain.Deal
import Sosedi.Domain.Events
import Sosedi.Domain.Money
import Sosedi.Domain.Provider
import Sosedi.Domain.Timestamps
import Sosedi.Domain.Uploads
import Sosedi.Locks.AdvisoryLocks
import Sosedi.Locks.CoreLocks
import Sosedi.Logging.Noninterference
import Sosedi.Logging.RedactedText
import Sosedi.Logging.SensitiveData
import Sosedi.Logging.SensitiveText
import Sosedi.Mobile.AuthInterceptor
import Sosedi.Mobile.BookingChat
import Sosedi.Mobile.BookingDateRules
import Sosedi.Mobile.CatalogController
import Sosedi.Mobile.FavoriteController
import Sosedi.Mobile.InboxController
import Sosedi.Mobile.LateRefresh
import Sosedi.Mobile.NavigationGuard
import Sosedi.Mobile.NotificationNavigation
import Sosedi.Mobile.PhotoPublication
import Sosedi.Mobile.PhotoUploads
import Sosedi.Mobile.PrivateState
import Sosedi.Mobile.RefreshOnce
import Sosedi.Mobile.Riverpod
import Sosedi.Notifications.Delivery
import Sosedi.Notifications.DeviceTokens
import Sosedi.Notifications.InboxPages
import Sosedi.Notifications.InboxService
import Sosedi.Notifications.NotifyContract
import Sosedi.Notifications.NotifyInvariant
import Sosedi.Notifications.NotifyRuns
import Sosedi.Notifications.NotifySafety
import Sosedi.Notifications.NotifyScripts
import Sosedi.Notifications.NotifyServices
import Sosedi.Notifications.NotifySystem
import Sosedi.Notifications.PushLeases
import Sosedi.Notifications.Tables
import Sosedi.Operations.PostgresBackup
import Sosedi.Operations.StreamCipher
import Sosedi.Reviews.DoubleBlind
import Sosedi.Reviews.ReviewContract
import Sosedi.Reviews.ReviewRuns
import Sosedi.Reviews.ReviewSystem
import Sosedi.Reviews.ReviewsService
import Sosedi.Safety.Accounts
import Sosedi.Safety.Acts
import Sosedi.Safety.Bookings
import Sosedi.Safety.Cleanup
import Sosedi.Safety.Confirmations
import Sosedi.Safety.Deposits
import Sosedi.Safety.Photos
import Sosedi.Safety.Support
import Sosedi.Safety.Uploads
import Sosedi.Scripts
import Sosedi.Services.AdminService
import Sosedi.Services.BookingActService
import Sosedi.Services.BookingService
import Sosedi.Services.Calls
import Sosedi.Services.DepositService
import Sosedi.Services.ItemsService
import Sosedi.Services.Statements
import Sosedi.Services.SupportService
import Sosedi.Services.UploadService
import Sosedi.Services.UsersService
import Sosedi.Support.Workflow
import Sosedi.System
import Sosedi.Transactions.Alone
import Sosedi.Transactions.Behaviours
import Sosedi.Transactions.Continued
import Sosedi.Transactions.Embedding
import Sosedi.Transactions.Failures
import Sosedi.Transactions.Interleaving
import Sosedi.Transactions.LockOrder
import Sosedi.Transactions.Observers
import Sosedi.Transactions.Program
import Sosedi.Transactions.RelyGuarantee
import Sosedi.Transactions.Schedules
import Sosedi.Transactions.Stops
import Sosedi.Uploads.Facts
import Sosedi.Uploads.Integrity
import Sosedi.Uploads.Invariant
import Sosedi.Uploads.OneUse
import Sosedi.Uploads.PhotoLimits
import Sosedi.Uploads.PhotoRequests
import Sosedi.Uploads.Processing
import Sosedi.Uploads.Retries
import Sosedi.Uploads.Spared
import Sosedi.Uploads.Steps
