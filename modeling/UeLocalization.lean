import UeLocalization.Basic
import UeLocalization.Names
import UeLocalization.Measurements
import UeLocalization.Adaptive.Window
import UeLocalization.Adaptive.Pipeline
import UeLocalization.MovingAverage
import UeLocalization.MovingAverage.Samples
import UeLocalization.Trilateration.Burst
import UeLocalization.Trilateration.Send
import UeLocalization.Trilateration.Program
import UeLocalization.EnbDevice
import UeLocalization.Monitor.V2
import UeLocalization.Monitor.V1
import UeLocalization.Monitor.Sinr
