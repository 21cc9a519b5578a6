import Proverbs.Core.CappedSet
import Proverbs.Core.Dictionary
import Proverbs.Core.DrawBag
import Proverbs.Core.InFlight
import Proverbs.Core.OrderedList
import Proverbs.Core.SetHistory
import Proverbs.Core.Table
import Proverbs.Core.Unicode
import Proverbs.LocalStorages.ProverbsStorage
import Proverbs.Managers.AccountIsolation
import Proverbs.Managers.AlphabeticalOrder
import Proverbs.Managers.BroughtFavorites
import Proverbs.Managers.Calculus
import Proverbs.Managers.CappedFavorites
import Proverbs.Managers.CapturedFavorites
import Proverbs.Managers.CatalogueContent
import Proverbs.Managers.Crashes
import Proverbs.Managers.DailyReminder
import Proverbs.Managers.Effects
import Proverbs.Managers.FailedLookup
import Proverbs.Managers.Firebase.DocumentIdentifiers
import Proverbs.Managers.Firebase.UserData
import Proverbs.Managers.FreeLimit
import Proverbs.Managers.HonestSharing
import Proverbs.Managers.InitialPopulation
import Proverbs.Managers.InterruptedMigration
import Proverbs.Managers.LeadingArticles
import Proverbs.Managers.Machine
import Proverbs.Managers.MigratedCollection
import Proverbs.Managers.Migration
import Proverbs.Managers.MigrationAccount
import Proverbs.Managers.MigrationOrder
import Proverbs.Managers.MigrationRace
import Proverbs.Managers.NetworkActivityIndicatorManager
import Proverbs.Managers.NetworkOperations
import Proverbs.Managers.OnDevice
import Proverbs.Managers.OverlappingShares
import Proverbs.Managers.ProverbsManager
import Proverbs.Managers.RandomProverb
import Proverbs.Managers.RemindersManager
import Proverbs.Managers.RemindersSwitch
import Proverbs.Managers.RemoteHistory
import Proverbs.Managers.RemoteToggles
import Proverbs.Managers.RequestAnswers
import Proverbs.Managers.Requests
import Proverbs.Managers.ShareToUnlock
import Proverbs.Managers.StorageReports
import Proverbs.Managers.StorageSwitch
import Proverbs.Managers.ToggleAnswers
import Proverbs.Managers.UserGroup.PlanCache
import Proverbs.Managers.UserGroup.SignInAnswers
import Proverbs.Managers.UserGroup.SignInAttempts
import Proverbs.Managers.UserGroup.SignInState
import Proverbs.Models.Firestore.FavoriteDictionary
import Proverbs.Utils.ColorsRandomizer
import Proverbs.ViewControllers.ActionSheetViewController
import Proverbs.ViewControllers.AllListGroup.AllProverbsTable
import Proverbs.ViewControllers.AllListGroup.AllProverbsViewController
import Proverbs.ViewControllers.BaseGroup.BannerViewController
import Proverbs.ViewControllers.BaseGroup.BaseViewController
import Proverbs.ViewControllers.FavoritesContent
import Proverbs.ViewControllers.FavoritesGroup.DroppedRows
import Proverbs.ViewControllers.FavoritesGroup.FavoritesProverbsViewController
import Proverbs.ViewControllers.FavoritesGroup.SwipeDelete
import Proverbs.ViewControllers.LocalScreens
import Proverbs.ViewControllers.PurchaseScreens
import Proverbs.ViewControllers.RandomGroup.ButtonLock
import Proverbs.ViewControllers.RandomGroup.OneChange
import Proverbs.ViewControllers.RandomGroup.ProverbInProgress
import Proverbs.ViewControllers.RandomGroup.RandomProverbViewController
import Proverbs.ViewControllers.RandomGroup.SaveButton
import Proverbs.ViewControllers.ReminderTime
import Proverbs.ViewControllers.ScreenAgreement
import Proverbs.ViewControllers.Screens
import Proverbs.ViewControllers.SettingsViewController
import Proverbs.ViewControllers.SheetActions
import Proverbs.ViewControllers.SideMenu.LoginTitle
import Proverbs.ViewControllers.SideMenu.MenuListViewController
import Proverbs.ViewControllers.SideMenu.MenuViewController
