import Rfs.Result
import Rfs.Meta.Types
import Rfs.Meta.Schema
import Rfs.Meta.Dir
import Rfs.Meta.Aci
import Rfs.Url.Encode
import Rfs.Url.Parse
import Rfs.Url.Steps
import Rfs.Url.Accepted
import Rfs.Url.Segments
import Rfs.Store.Zdb
import Rfs.Store.ZdbUrl
import Rfs.Store.ZdbInput
import Rfs.Bin.Docker2fl
import Rfs.Bin.Mount
