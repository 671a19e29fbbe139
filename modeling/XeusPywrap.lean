import XeusPywrap.Kernel.BlockingReplies
import XeusPywrap.Kernel.AsyncReplies
import XeusPywrap.Kernel.PublishContext
import XeusPywrap.Kernel.Dispatch
import XeusPywrap.Runner.MessageTrace
import XeusPywrap.Runner.MainLoop
import XeusPywrap.Runner.StrandedMessages
import XeusPywrap.Runner.Drain
import XeusPywrap.Shakespeare.InputStream
import XeusPywrap.Shakespeare.Cache
import XeusPywrap.Shakespeare.Interpreter
import XeusPywrap.Brainfuck.Interpreter
import XeusPywrap.Basic.RoundTrip
import XeusPywrap.Basic.Interpreter
import XeusPywrap.Basic.WhileLoops
import XeusPywrap.Basic.Structured
import XeusPywrap.Basic.Evaluation
import XeusPywrap.Basic.DataStream
