import SimplexMethod.CommandLine

/-!
# The program

Prints random instances. Arguments that cannot be read and instances that cannot be made are
reported as errors.
-/

open SimplexMethod

/-- Report an error. -/
def SimplexMethod.CommandLine.complain (message : String) (code : UInt32) : IO UInt32 := do
  (← IO.getStderr).putStrLn message
  return code

/-- Print the instances that the arguments ask for. -/
def main (arguments : List String) : IO UInt32 := do
  match CommandLine.parse arguments with
  | .error fault => CommandLine.complain fault.message 2
  | .ok settings =>
    match CommandLine.instances settings with
    | .error fault => CommandLine.complain fault.message 1
    | .ok text =>
      (← IO.getStdout).putStr text
      return 0
