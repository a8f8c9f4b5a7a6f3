import SideswapManager.BTree
import SideswapManager.Machine
import SideswapManager.Data
import SideswapManager.Events
import SideswapManager.Handlers
import SideswapManager.GetQuote
import SideswapManager.Coordinator
import SideswapManager.Effects
import SideswapManager.UtxoCheck
import SideswapManager.QuoteFees
import SideswapManager.QuoteWait
import SideswapManager.Markets
import SideswapManager.Persistence
import SideswapManager.Failures
import SideswapManager.Monitoring
import SideswapManager.Addresses
import SideswapManager.Views
import SideswapManager.Connections
import SideswapManager.Balances
import SideswapManager.Cipher
import SideswapManager.Replies
import SideswapManager.Quotes
import SideswapManager.Drafts
import SideswapManager.Pegs
import SideswapManager.Gateway
import SideswapManager.Registry
