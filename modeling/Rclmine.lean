import Rclmine.ToMathlib.Mealy
import Rclmine.ToMathlib.Noninterference
import Rclmine.ToMathlib.ListSplit
import Rclmine.ToMathlib.PolledQueue
import Rclmine.ToMathlib.GuardedRun
import Rclmine.ToMathlib.NoneAfter
import Rclmine.ToMathlib.ForallPrefix
import Rclmine.ToMathlib.Linearizability
import Rclmine.ToMathlib.RequestReply
import Rclmine.Parameter.Defs
import Rclmine.Parameter.History
import Rclmine.Parameter.Getters
import Rclmine.ParameterService.Defs
import Rclmine.ParameterService.Requests
import Rclmine.ParameterService.Entries
import Rclmine.ParameterService.Updates
import Rclmine.ParameterService.Noninterference
import Rclmine.ParameterService.Dump
import Rclmine.Rcl.WaitSet
import Rclmine.Node.Defs
import Rclmine.Node.Lifetime
import Rclmine.Executor.Defs
import Rclmine.Executor.Spin
import Rclmine.Executor.Runs
import Rclmine.Executor.SpinLoop
import Rclmine.Executor.Fairness
import Rclmine.Executor.Attach
import Rclmine.Executor.Handles
import Rclmine.ParameterService.Construct
import Rclmine.ParameterServer.Defs
import Rclmine.ParameterServer.Linearizable
import Rclmine.ParameterServer.Clients
import Rclmine.ParameterServer.Retries
import Rclmine.AddTwoInts.Defs
import Rclmine.AddTwoInts.EndToEnd
import Rclmine.Usecase.MainParameter
import Rclmine.Old.Lifetime
import Rclmine.Old.Loops
