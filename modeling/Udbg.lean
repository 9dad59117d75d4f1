import Udbg.Utf8
import Udbg.Nix.Procfs
import Udbg.Nix.Process
import Udbg.Nix.Wait
import Udbg.Nix.Memory
import Udbg.Nix.MemoryChannel
import Udbg.Windows.Handle
import Udbg.Windows.ToolHelp
import Udbg.Windows.Memory
import Udbg.Windows.MemoryIter
import Udbg.Windows.WriteMemory
import Udbg.Windows.PeReader
import Udbg.Windows.ProcessInfo
import Udbg.Windows.Exception
import Udbg.Windows.CommandLine
import Udbg.Windows.CreateProcess
