import Libre.Lib.Bytes
import Libre.Mbuf.Buffer
import Libre.Mem.Heap
import Libre.Rtp.Header
import Libre.Srtp.Cipher
import Libre.Srtp.Index
import Libre.Srtp.Session
import Libre.Srtp.Protect
import Libre.Srtp.Srtcp
import Libre.Srtp.Authenticity
import Libre.Srtp.Failure
import Libre.Srtp.Tracking
import Libre.Srtp.Transform
import Libre.Srtp.Agreement
import Libre.Lib.Reassembly
import Libre.Websock.Frame
import Libre.Websock.Receive
import Libre.Lib.Word
import Libre.H264.Nal
import Libre.Telev.Events
import Libre.List.Link
import Libre.Lib.SortedInsert
import Libre.Tmr.Timer
import Libre.Srtp.Replay
import Libre.Rtp.Source
import Libre.Base64.Codec
import Libre.Dns.Name
import Libre.Dns.Record
import Libre.Rtp.Rtcp
import Libre.Rtmp.Header
import Libre.Rtmp.Dechunk
import Libre.Rtmp.Amf
import Libre.Rtmp.Chunk
import Libre.Rtmp.Receive
import Libre.Rtmp.Conn
import Libre.Rtmp.Session
import Libre.Lib.Leb128
import Libre.Av1.Obu
import Libre.H264.FuHeader
import Libre.Odict.Compare
import Libre.Base64.RoundTrip
import Libre.Fmt.Print
import Libre.Fmt.Pl
import Libre.Fmt.Regex
import Libre.Uri.Escape
import Libre.Sa.Addr
import Libre.Uri.Codec
import Libre.Stun.Attr
import Libre.Stun.Msg
import Libre.H264.Getbit
import Libre.List.Sort
import Libre.List.Refinement
import Libre.Aubuf.Buffer
import Libre.Lib.StableSort
import Libre.Rtmp.Opening
import Libre.Rtmp.Window
