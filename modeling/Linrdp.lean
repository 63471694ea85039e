import Linrdp.Session.OneSession
import Linrdp.Supervisor.Isolation
import Linrdp.Supervisor.Budget
import Linrdp.Sam.Store
import Linrdp.Capture.Baseline
import Linrdp.Capture.DamageGate
import Linrdp.Graphics.ClearDecoder
import Linrdp.Display.NoStale
import Linrdp.Egfx.Protocol
import Linrdp.Egfx.Order
import Linrdp.Egfx.FlowControl
import Linrdp.Display.Held
import Linrdp.Display.Streams
import Linrdp.Display.ClearSeq
import Linrdp.Rdpeudp.Wraparound
import Linrdp.Rdpeudp.Mtu
import Linrdp.Audio.Microphone
import Linrdp.Audio.MicControl
import Linrdp.Audio.Resample
import Linrdp.Audio.WaveFlow
import Linrdp.Session.DisplayNumbers
import Linrdp.Session.Controller
import Linrdp.Wayland.Commands
import Linrdp.Wayland.Attach
import Linrdp.Clipboard.LastCopy
import Linrdp.Clipboard.Selection
import Linrdp.Input.Unicode
import Linrdp.Clipboard.Streams
import Linrdp.Clipboard.Dib
import Linrdp.Clipboard.NoEcho
import Linrdp.Session.FileAgent
import Linrdp.Session.PasteDir
import Linrdp.Service.Pam
import Linrdp.Dvc.Closing
import Linrdp.Auth.Md5Crypt
import Linrdp.Input.Locks
import Linrdp.Display.PointerFollows
import Linrdp.Configuration.Edits
import Linrdp.Rdpeudp.Released
import Linrdp.Rdpeudp.Timers
import Linrdp.Rdpemt.WritePump
import Linrdp.Supervisor.Framing
import Linrdp.Server.RefreshDebt
import Linrdp.Server.FramePacing
import Linrdp.Display.DebtBands
import Linrdp.Capture.TileLoop
import Linrdp.Capture.Delivered
import Linrdp.Graphics.Avc444
import Linrdp.Session.RecordFile
import Linrdp.Session.Xauth
