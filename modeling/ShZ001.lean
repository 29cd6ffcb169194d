import ShZ001.Lib.Machine
import ShZ001.Lib.History
import ShZ001.Lib.Observe
import ShZ001.Lib.Party
import ShZ001.Lib.Within
import ShZ001.Lib.Bytes
import ShZ001.Lib.Search
import ShZ001.Lib.Scan
import ShZ001.Lib.Decimal
import ShZ001.Lib.Selection
import ShZ001.Lib.Walk
import ShZ001.Lib.Slots
import ShZ001.Lib.Strings
import ShZ001.Lib.Twin
import ShZ001.Lib.Storage
import ShZ001.Lib.Contents
import ShZ001.Lib.Writes
import ShZ001.Lib.Lock
import ShZ001.Lib.LockSystem
import ShZ001.Gsm.Cmd
import ShZ001.Gsm.At
import ShZ001.Gsm.Reply
import ShZ001.Gsm.Sys
import ShZ001.Gsm.Modem
import ShZ001.Gsm.Phase
import ShZ001.Gsm.Link
import ShZ001.Gsm.Handshake
import ShZ001.Gsm.Spawn
import ShZ001.Gsm.Locks
import ShZ001.Gsm.Proofs.Status
import ShZ001.Gsm.Proofs.Startup
import ShZ001.Gsm.Proofs.Disconnect
import ShZ001.Gsm.Proofs.Sticky
import ShZ001.Gsm.Proofs.Uart
import ShZ001.Gsm.Proofs.InitLoop
import ShZ001.Gsm.Proofs.RegTimeout
import ShZ001.Gsm.Proofs.Block
import ShZ001.Gsm.Proofs.Traffic
import ShZ001.Gsm.Proofs.Ownership
import ShZ001.Gsm.Proofs.Single
import ShZ001.Gsm.Proofs.Verdict
import ShZ001.Gsm.Proofs.Collect
import ShZ001.Gsm.Proofs.HangUp
import ShZ001.Gsm.Proofs.Restart
import ShZ001.Gsm.Proofs.OneLife
import ShZ001.Sms.Parse
import ShZ001.Sms.Render
import ShZ001.Sms.Read
import ShZ001.Sms.Listing
import ShZ001.Sms.Header
import ShZ001.Sms.Send
import ShZ001.Sms.Framing
import ShZ001.Sms.Delete
import ShZ001.Sms.Inbox
import ShZ001.Sms.Calls
import ShZ001.Sms.Proofs.Stride
import ShZ001.Sms.Proofs.Fields
import ShZ001.Sms.Proofs.Recover
import ShZ001.Sms.Proofs.Sorted
import ShZ001.Sms.Proofs.Prompt
import ShZ001.Sms.Proofs.Chronology
import ShZ001.Sms.Proofs.Fetch
import ShZ001.Sms.Proofs.Stale
import ShZ001.Sms.Proofs.Cursor
import ShZ001.Sms.Proofs.Framing
import ShZ001.Sms.Proofs.Inbox
import ShZ001.Sms.Proofs.Calls
import ShZ001.Sms.Proofs.Delete
import ShZ001.Gsm.Proofs.Commands
import ShZ001.App.WifiAp
import ShZ001.App.Gprs
import ShZ001.App.Firmware
import ShZ001.App.Credentials
import ShZ001.App.LightKeys
import ShZ001.App.Display
import ShZ001.Dns.Name
import ShZ001.Dns.Recv
import ShZ001.Dns.Decode
import ShZ001.Dns.Answer
import ShZ001.Dns.Wire
import ShZ001.Dns.Server
import ShZ001.Dns.Proofs.Overflow
import ShZ001.Dns.Proofs.Records
import ShZ001.Dns.Proofs.Isolation
import ShZ001.Dns.Proofs.Stuck
import ShZ001.Dns.Proofs.Bounce
import ShZ001.Dns.Proofs.Roundtrip
import ShZ001.Dns.Proofs.Initialised
import ShZ001.Dns.Proofs.Rings
import ShZ001.Dns.Proofs.Pointers
import ShZ001.Dns.Proofs.Encode
import ShZ001.Dns.Proofs.Served
import ShZ001.Dns.Proofs.Stall
