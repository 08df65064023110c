import DineFlow.Authorization
import DineFlow.BookingAccess
import DineFlow.BookingsTab
import DineFlow.CacheFidelity
import DineFlow.CartConservation
import DineFlow.CartExpiry
import DineFlow.CartFaults
import DineFlow.CartIsolation
import DineFlow.CartPersistence
import DineFlow.CartPrices
import DineFlow.CartSerial
import DineFlow.EventDelivery
import DineFlow.GuestIdentity
import DineFlow.InputBounds
import DineFlow.KeyFamilies
import DineFlow.KitchenBoard
import DineFlow.KitchenListing
import DineFlow.ListingSearch
import DineFlow.LocalCart
import DineFlow.MenuEdits
import DineFlow.MenuStaleness
import DineFlow.MenuToggles
import DineFlow.MenuViews
import DineFlow.OrderDisclosure
import DineFlow.OrderLifecycle
import DineFlow.OrderNotices
import DineFlow.OrderPrivacy
import DineFlow.OrderRange
import DineFlow.OrderSnapshot
import DineFlow.OrderText
import DineFlow.OrderTotals
import DineFlow.OriginSettings
import DineFlow.Pagination
import DineFlow.RestaurantHomes
import DineFlow.RoomIsolation
import DineFlow.SignedInUsers
import DineFlow.StatusEvents
import DineFlow.StoreCheckout
import DineFlow.StoreOrders
import DineFlow.TableRequests
import DineFlow.TokenRefinement
import DineFlow.ReseedFrame
import DineFlow.PwaManager
import DineFlow.OrderSums
import DineFlow.OrderNews
import DineFlow.History
import DineFlow.Strangers
import DineFlow.FailedRequests
import DineFlow.Parties
import DineFlow.Registration
import DineFlow.BookingDesk
import DineFlow.OrderBoards
import DineFlow.SocketClients
