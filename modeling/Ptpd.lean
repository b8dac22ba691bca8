import Ptpd.Lib.History
import Ptpd.Lib.Ring
import Ptpd.Timer
import Ptpd.Msg
import Ptpd.ForeignMaster
import Ptpd.ParentData
import Ptpd.Codec
import Ptpd.Residue
import Ptpd.Election
import Ptpd.Recovery
import Ptpd.Issuing
import Ptpd.Mastership
import Ptpd.RoleTimers
import Ptpd.Conservation
import Ptpd.PeerDelay
import Ptpd.PeerResponses
import Ptpd.Measuring
import Ptpd.Calibration
import Ptpd.Recognition
import Ptpd.Lib.EachStep
import Ptpd.Lib.ScaledMean
import Ptpd.Lib.HalfWords
import Ptpd.Smoothing
import Ptpd.Discipline
import Ptpd.Nanos
import Ptpd.Sums
import Ptpd.Timestamps
import Ptpd.Rejection
import Ptpd.Selection
import Ptpd.TimerContract
import Ptpd.Requests
import Ptpd.Sntp
import Ptpd.Comparison
import Ptpd.Adjust
import Ptpd.SntpReplies
import Ptpd.Lib.SlotTable
import Ptpd.Monitor
import Ptpd.Eth.Clock
import Ptpd.Eth.Descriptor
import Ptpd.Eth.Transmit
import Ptpd.Eth.Receive
import Ptpd.EndToEnd.Delivery
import Ptpd.EndToEnd.PeerDelay
import Ptpd.EndToEnd.Offset
import Ptpd.Lib.Calendar
import Ptpd.DateTime
import Ptpd.SecToTime
import Ptpd.SntpServer
import Ptpd.Lib.Decimal
import Ptpd.Nmea
import Ptpd.Tod
import Ptpd.Usart1
import Ptpd.NetConfig
import Ptpd.Lib.CString
import Ptpd.Usart5
import Ptpd.Lib.NorFlash
import Ptpd.StmFlash
import Ptpd.Lib.Descent
import Ptpd.Draining
import Ptpd.Stillness
import Ptpd.Periodic
import Ptpd.Lib.CheckedInt
import Ptpd.InPlace
import Ptpd.Correction
import Ptpd.Lib.Transducer
import Ptpd.Lib.Fifo
import Ptpd.Queue
import Ptpd.PacketCopy
import Ptpd.Eth.SetTime
import Ptpd.Commas
import Ptpd.Lib.BubbleSort
import Ptpd.Filter
import Ptpd.Serial
import Ptpd.IrigB.Code
import Ptpd.IrigB.RoundTrip
import Ptpd.IrigB.Frames
import Ptpd.Sending
import Ptpd.Lib.Wire
import Ptpd.Hearing
import Ptpd.Provenance
import Ptpd.Segment
import Ptpd.Meeting
import Ptpd.Failover
import Ptpd.Lib.Layout
import Ptpd.Lib.Checksum
import Ptpd.Report
import Ptpd.Lib.Trigger
import Ptpd.Tasks
import Ptpd.Lib.RefCount
import Ptpd.Lwip.References
import Ptpd.Lib.Segments
import Ptpd.Lwip.Netif
import Ptpd.Lwip.Datagrams
import Ptpd.Lwip.Delivery
import Ptpd.Lib.Tiling
import Ptpd.Lwip.Areas
