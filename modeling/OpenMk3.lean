import OpenMk3.Library.Bitmap
import OpenMk3.Library.Raster
import OpenMk3.Library.Runs
import OpenMk3.Library.Transducer
import OpenMk3.Library.Transition
import OpenMk3.Proto.Display
import OpenMk3.Display.Dirty
import OpenMk3.Display.Framebuffer
import OpenMk3.Display.Encoder
import OpenMk3.Device.Controls
import OpenMk3.Device.PadMachine
import OpenMk3.Display.Grammar
import OpenMk3.Display.Sync
import OpenMk3.Display.Task
import OpenMk3.Device.Isolation
import OpenMk3.Device.PadJitter
import OpenMk3.Device.PadRelease
import OpenMk3.Nks.Framing
import OpenMk3.Nks.RoundTrip
import OpenMk3.Plugins.Identity
import OpenMk3.Index.Consistency
import OpenMk3.Index.Accounting
import OpenMk3.Session.Closing
import OpenMk3.Session.Manager
import OpenMk3.Ui.Displays
import OpenMk3.Platform.Rollback
import OpenMk3.Dext.HidOwnership
import OpenMk3.Dext.RingAccounting
import OpenMk3.Host.Fidelity
import OpenMk3.Daemon.Reports
import OpenMk3.Daemon.Framing
import OpenMk3.Display.TileSet
import OpenMk3.Display.Bounds
import OpenMk3.Display.SolidFrame
import OpenMk3.Ui.Fill
import OpenMk3.Index.Batching
import OpenMk3.Proto.Reports
import OpenMk3.Proto.HidOut
import OpenMk3.Nks.Termination
import OpenMk3.Dext.Frames
import OpenMk3.Plugins.ClassId
import OpenMk3.Plugins.Auval
import OpenMk3.Ui.Lists
import OpenMk3.Index.Walk
import OpenMk3.Host.Escaping
import OpenMk3.Usb.Queue
import OpenMk3.Usb.Wakeups
import OpenMk3.Device.HidReader
import OpenMk3.Daemon.Osc
import OpenMk3.Daemon.Views
import OpenMk3.Daemon.Service
import OpenMk3.Host.Coupling
import OpenMk3.Daemon.Restore
import OpenMk3.Daemon.Knobs
import OpenMk3.Dext.HidIn
