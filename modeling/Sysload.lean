import Sysload.Lib.Comp
import Sysload.Lib.Memory
import Sysload.Lib.Orbit
import Sysload.Lib.Words
import Sysload.Lib.Slots
import Sysload.Lib.Ere
import Sysload.Lib.Radix
import Sysload.Lib.Worklist
import Sysload.Lib.Recorder
import Sysload.Machine
import Sysload.Bootmap.Disk
import Sysload.Bootmap.Geometry
import Sysload.Bootmap.Read
import Sysload.Bootmap.Tables
import Sysload.Bootmap.Walk
import Sysload.Bootmap.Assembly
import Sysload.Bootmap.Termination
import Sysload.Config
import Sysload.Bootmap.Open
import Sysload.Lib.Routine
import Sysload.Loader.Command
import Sysload.Bootmap.Boot
import Sysload.Loader.Insfile
import Sysload.Loader.Uri
import Sysload.Loader.Loader
import Sysload.Lib.Run
import Sysload.UiControl
import Sysload.UiControl.Progress
import Sysload.Environment
import Sysload.UiControl.Signals
import Sysload.UiControl.Start
import Sysload.UiControl.Timeout
import Sysload.Parser.Context
import Sysload.Parser.Grammar
import Sysload.Parser.Sections
import Sysload.Parser.Inactive
import Sysload.Parser.Meaning
import Sysload.Parser.Automaton
import Sysload.Lib.Lexer
import Sysload.Parser.Scanner
import Sysload.Parser.Parse
import Sysload.Parser.Termination
import Sysload.Parser.OnlyUi
import Sysload.Parser.Selection
import Sysload.Parser.Independence
import Sysload.UiControl.Selected
import Sysload.Bootmap.Initrd
import Sysload.Bootmap.Image
import Sysload.Parser.Nesting
import Sysload.Loader.Collect
import Sysload.Loader.Commandline
import Sysload.Loader.Boots
import Sysload.Loader.Scp
import Sysload.UiSsh
import Sysload.Linemode.Menu
import Sysload.Linemode.Selection
import Sysload.Linemode.Modify
import Sysload.Linemode.Password
import Sysload.Linemode.Typing
import Sysload.Linemode.SetTerminal
import Sysload.Linemode.Output
import Sysload.Parser.Entries
import Sysload.Parser.Lines
import Sysload.Parser.Printing
import Sysload.Parser.RoundTrip
import Sysload.Parser.Truncated
import Sysload.Parser.UriScheme
import Sysload.Parser.Spelling
import Sysload.Parser.IncludeStack
import Sysload.Parser.OneLine
import Sysload.Parser.KernelCmdline
import Sysload.Parser.Default
import Sysload.Parser.Written
import Sysload.Loader.InsfileLines
import Sysload.Loader.Voting
import Sysload.Loader.Booted
import Sysload.Loader.ScpUrl
import Sysload.Loader.BootmapUri
import Sysload.Bootmap.ReadFile
import Sysload.Loader.Online
import Sysload.Loader.ClZfcp
import Sysload.Net.MacTest
import Sysload.Net.Dhcp
import Sysload.Net.InfoFile
import Sysload.Admin.AddModules
import Sysload.MainLoop
import Sysload.UiControl.Selected
