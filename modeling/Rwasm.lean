import Rwasm.Segments.MemoryInit
import Rwasm.Segments.TableInit
import Rwasm.Vm.Interruption
import Rwasm.Vm.Cleanup
import Rwasm.Vm.BulkTable
import Rwasm.Vm.LinearMemory
import Rwasm.Vm.Fuel
import Rwasm.Module.RoundTrip
import Rwasm.Module.Untrusted
import Rwasm.Module.Fetch
import Rwasm.Isa.Evaluation
import Rwasm.Compiler.Control
import Rwasm.Compiler.Instantiation
import Rwasm.Compiler.MemoryAccess
import Rwasm.Compiler.TailCall
import Rwasm.Compiler.ConstEval
import Rwasm.Compiler.SnippetHeight
import Rwasm.Compiler.StateRouter
import Rwasm.Compiler.IndirectCalls
import Rwasm.Compiler.Emulation
