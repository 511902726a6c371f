import Osgods.Library.Transition
import Osgods.Library.LinkedList
import Osgods.Library.BitField
import Osgods.Library.ByteCopy
import Osgods.Library.Bank
import Osgods.Library.Backed
import Osgods.Library.Loop
import Osgods.Library.Buffer
import Osgods.Library.Scan
import Osgods.Library.Numeral
import Osgods.Library.Words
import Osgods.Library.Sheet
import Osgods.Library.X86
import Osgods.Types
import Osgods.Lib.Strings
import Osgods.Lib.Itoa
import Osgods.Lib.Printf
import Osgods.Page.Basic
import Osgods.Page.Translate
import Osgods.Page.Isolation
import Osgods.Filesystem.Basic
import Osgods.Filesystem.ReadData
import Osgods.Filesystem.Slots
import Osgods.Filesystem.Lookup
import Osgods.Syscall.Basic
import Osgods.Syscall.Frame
import Osgods.Syscall.Cursor
import Osgods.Syscall.Descriptor
import Osgods.Syscall.Buffer
import Osgods.Syscall.Directory
import Osgods.Syscall.Linkage
import Osgods.Process.Program
import Osgods.Process.Kernel
import Osgods.Process.Execute
import Osgods.Process.Command
import Osgods.Process.ParseCmd
import Osgods.Syscall.GetArgs
import Osgods.Process.Halt
import Osgods.Process.Scheduler
import Osgods.Process.System
import Osgods.Process.Tables
import Osgods.Process.RtcTicks
import Osgods.Process.Accept
import Osgods.Process.Chain
import Osgods.Process.Placement
import Osgods.Process.Invariant
import Osgods.Process.Outcome
import Osgods.Process.Safety
import Osgods.Process.Contexts
import Osgods.Process.ExitStatus
import Osgods.Terminal.Console
import Osgods.Terminal.Bounds
import Osgods.Terminal.Undo
import Osgods.Terminal.Keyboard
import Osgods.Terminal.Video
import Osgods.Terminal.Machine
import Osgods.Lib.Memcpy
import Osgods.Terminal.Layout
import Osgods.Terminal.Sound
import Osgods.Terminal.KeyBuffer
import Osgods.Terminal.Lines
import Osgods.Terminal.SavedLines
import Osgods.Terminal.Desk
import Osgods.Terminal.Station
import Osgods.Terminal.Delivery
import Osgods.Terminal.Discipline
import Osgods.Terminal.Output
import Osgods.Terminal.Screens
import Osgods.Terminal.Cursor
import Osgods.Terminal.Session
import Osgods.Terminal.VideoMap
import Osgods.Terminal.VideoUsers
import Osgods.Preempt.Execute
import Osgods.Preempt.Launch
import Osgods.Preempt.Halt
import Osgods.Preempt.Read
import Osgods.Preempt.Tick
import Osgods.Library.Routine
import Osgods.User.Basic
import Osgods.User.Support
import Osgods.User.Calls
import Osgods.User.Cat
import Osgods.User.Ls
import Osgods.User.Grep
import Osgods.Library.Pic
import Osgods.Device.I8259
import Osgods.Device.Idt
import Osgods.Device.Rtc
import Osgods.Library.Asm
import Osgods.Library.StringOps
import Osgods.Lib.Memset
import Osgods.User.Shell
import Osgods.Library.Interrupt
import Osgods.Device.Wrapper
