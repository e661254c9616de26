import Shell.Library.DescriptorTable
import Shell.Library.FirstMatch
import Shell.Library.MaximalMunch
import Shell.Library.TransitionSystem
import Shell.Parsing.Syntax
import Shell.Parsing.Lexer
import Shell.Parsing.LexicalGrammar
import Shell.Parsing.LexerCorrectness
import Shell.Parsing.CommandParser
import Shell.Parsing.CommandGrammar
import Shell.Parsing.ParserCorrectness
import Shell.Parsing.PlanPrinter
import Shell.JobControl.Table
import Shell.JobControl.Operations
import Shell.JobControl.TableInvariant
import Shell.JobControl.Completion
import Shell.JobControl.ReapMachine
import Shell.JobControl.Delivery
import Shell.JobControl.Wakeup
import Shell.Executor.Descriptors
import Shell.Executor.Display
import Shell.Executor.LaunchMachine
import Shell.Executor.Wiring
import Shell.Executor.ProcessGroups
import Shell.Executor.TerminalHandoff
import Shell.JobControl.EventOrder
import Shell.Executor.AndOrLists
import Shell.Parsing.Composition
import Shell.Executor.JobText
import Shell.Sandbox.ControlFiles
import Shell.Sandbox.Handshake
import Shell.Library.Guarded
import Shell.Sandbox.Limits
import Shell.Sandbox.Namespaces
import Shell.Trace.Rendering
import Shell.Trace.Tracer
import Shell.Trace.Accounting
import Shell.History.Builtin
import Shell.History.Persistence
import Shell.JobControl.ForegroundStatus
import Shell.JobControl.Resumption
import Shell.Parsing.Numerals
import Shell.JobControl.JobSpecs
import Shell.Trace.StringReading
import Shell.Resource.Options
import Shell.Resource.Quantities
import Shell.Executor.PathSearch
import Shell.Library.OptionScan
import Shell.Resource.Execution
import Shell.Sandbox.Arguments
import Shell.Sandbox.CgroupLifetime
import Shell.Library.TextSearch
import Shell.Process.Information
import Shell.Process.KernelFormats
import Shell.Builtins.ProcessSampling
import Shell.Builtins.Echo
import Shell.Builtins.WriteAll
import Shell.Parsing.ParserPasses
import Shell.Builtins.Dispatch
import Shell.Executor.ParentBuiltins
import Shell.Executor.ChildBuiltins
import Shell.Executor.Pipelines
import Shell.Library.CommonPrefix
import Shell.Main.Completion
import Shell.Main.Loop
import Shell.Main.Sessions
import Shell.Trace.Arguments
import Shell.Executor.ProgramStatus
import Shell.Executor.Ownership
import Shell.Executor.Signals
import Shell.Executor.Interrupts
import Shell.Sandbox.Capabilities
import Shell.Sandbox.StatusReport
import Shell.Process.Reading
import Shell.Library.Rounding
import Shell.Process.Report
