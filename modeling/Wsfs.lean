import Wsfs.FileLock.Translation
import Wsfs.Server.Pool
import Wsfs.Server.Lifetime
import Wsfs.ReadDir.Prefetch
import Wsfs.Webdav.Copy
import Wsfs.Storage.Windows
import Wsfs.Hub.Lifetime
import Wsfs.Hub.Requests
import Wsfs.Server.Registry
import Wsfs.Client.Lifecycle
import Wsfs.Mount.Windows
import Wsfs.Mount.Nodes
import Wsfs.Client.XAttrCalls
import Wsfs.Client.Sending
import Wsfs.Server.Connection
import Wsfs.Client.Accounting
import Wsfs.Client.Reports
import Wsfs.ReadDir.Parsing
import Wsfs.Transfer.Agreement
import Wsfs.Transfer.WriteAt
import Wsfs.Server.Reopen
import Wsfs.Server.Buffers
import Wsfs.Protocol.FromReader
import Wsfs.Unix.SpecialBits
import Wsfs.Webdav.Href
import Wsfs.Attr.Linux32
import Wsfs.Mount.CopyRange
import Wsfs.Server.XAttr
