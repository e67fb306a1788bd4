import RscdkChain.Serializer
import RscdkChain.Laws
import RscdkChain.Number
import RscdkChain.Collection
import RscdkChain.Varint
import RscdkChain.Structs.Fixed
import RscdkChain.Structs.Keys
import RscdkChain.Structs.Authority
import RscdkChain.Structs.SignatureRuns
import RscdkChain.Format
import RscdkChain.Client.Name
import RscdkChain.Client.NameFormat
import RscdkChain.Client.Tester
import RscdkChain.Client.Rpc
import RscdkChain.Client.Connection
import RscdkChain.Stream
import RscdkChain.Language
