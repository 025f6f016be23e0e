import PrimoCore.Lib.Run
import PrimoCore.Lib.Counter
import PrimoCore.Lib.LeapCalendar
import PrimoCore.Lib.LeapDates
import PrimoCore.Lib.Recurrence
import PrimoCore.Lib.CStr
import PrimoCore.Lib.Numeral
import PrimoCore.Lib.Pattern
import PrimoCore.Lib.PatternCount
import PrimoCore.Lib.Matcher
import PrimoCore.Lib.Substitute
import PrimoCore.Rtc.Clock
import PrimoCore.Rtc.Calendar
import PrimoCore.Rtc.Alarm
import PrimoCore.Rtc.Timekeeping
import PrimoCore.Rtc.DayNumber
import PrimoCore.Rtc.DayDifference
import PrimoCore.Rtc.Matching
import PrimoCore.Rtc.DateMatches
import PrimoCore.Rtc.DateAlarms
import PrimoCore.Rtc.Recurring
import PrimoCore.Ble.Node
import PrimoCore.Ble.Uuid
import PrimoCore.Ble.UuidText
import PrimoCore.Ble.Advertising
import PrimoCore.Ble.AdvFields
import PrimoCore.Lib.Bytes
import PrimoCore.Ble.TypedValues
import PrimoCore.Ble.SerialReceive
import PrimoCore.Ble.Serial
import PrimoCore.Ble.Attributes
import PrimoCore.Ble.Device
import PrimoCore.Ble.Broadcast
import PrimoCore.Ble.Credit
import PrimoCore.Ble.Central
import PrimoCore.Ble.RequestFlag
import PrimoCore.Ble.CentralLinks
import PrimoCore.Ble.CentralNodes
import PrimoCore.Ble.Subscription
import PrimoCore.Ble.SerialTransmit
import PrimoCore.Ble.CentralPackets
import PrimoCore.Ble.CentralCredit
import PrimoCore.Ble.CentralReports
import PrimoCore.Ble.CentralScans
import PrimoCore.Ble.CentralValues
import PrimoCore.Lib.Terminates
import PrimoCore.Ble.PeerDatabase
import PrimoCore.Ble.Discovery
import PrimoCore.Ble.BondStore
import PrimoCore.Ble.Keyboard
import PrimoCore.Ble.ReportMap
import PrimoCore.Ble.Eddystone
import PrimoCore.Lib.Headings
import PrimoCore.Ble.BeginTables
import PrimoCore.Core.RingBuffer
import PrimoCore.Lib.Ring
import PrimoCore.Core.Flash
import PrimoCore.Core.Interrupts
import PrimoCore.Core.Ppi
import PrimoCore.Core.Micros
import PrimoCore.Core.EventDispatch
import PrimoCore.Ble.ConnState
import PrimoCore.Ble.EventRouting
import PrimoCore.Storage.Pstorage
import PrimoCore.Storage.PageSwap
import PrimoCore.Storage.StoreRuns
import PrimoCore.Storage.Progress
import PrimoCore.Storage.Blocks
import PrimoCore.Bus.Wire
import PrimoCore.Bus.WireRings
import PrimoCore.Bus.Spi
import PrimoCore.Bus.SpiTransactions
import PrimoCore.Bus.SoftwareSerial
import PrimoCore.Bus.SerialOwner
import PrimoCore.Text.WString
import PrimoCore.Text.Itoa
import PrimoCore.Text.ParseInt
import PrimoCore.Text.FindUntil
import PrimoCore.Text.Dtostrf
import PrimoCore.Text.Strings
import PrimoCore.Text.Search
import PrimoCore.Text.Replace
import PrimoCore.Text.ReplaceCount
import PrimoCore.Text.Concat
import PrimoCore.Text.Ranges
import PrimoCore.Lib.Writer
import PrimoCore.Nfc.NdefRecord
import PrimoCore.Nfc.NdefMessage
import PrimoCore.Nfc.Messages
import PrimoCore.Nfc.Type2Tag
