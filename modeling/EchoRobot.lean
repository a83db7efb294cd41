import EchoRobot.Input.Delay
import EchoRobot.Lifecycle.Teardown
import EchoRobot.Read.Reader
import EchoRobot.Input.Serial
import EchoRobot.Replay.Stranding
import EchoRobot.Replay.Teach
import EchoRobot.Input.Muted
import EchoRobot.Replay.Completion
import EchoRobot.Replay.Recording
import EchoRobot.Logs.Window
import EchoRobot.Servo.Pulse
import EchoRobot.Servo.Mirror
import EchoRobot.Input.Debounce
import EchoRobot.Input.Counter
import EchoRobot.Input.Inactivity
import EchoRobot.Replay.Quiescence
import EchoRobot.Replay.Reproduction
import EchoRobot.Calls.Move
import EchoRobot.Calls.Failed
import EchoRobot.Read.Image
import EchoRobot.Read.Nonblocking
import EchoRobot.Replay.Playback
import EchoRobot.Buffer.Refinement
import EchoRobot.Buffer.Count
import EchoRobot.Lifecycle.Joystick
import EchoRobot.Replay.Items
import EchoRobot.Replay.Restart
import EchoRobot.Read.Readers
import EchoRobot.Replay.Accounting
import EchoRobot.Calls.Rest
import EchoRobot.Calls.Sleepers
import EchoRobot.Lifecycle.Unload
import EchoRobot.Lifecycle.Loading
import EchoRobot.Session.Waiting
import EchoRobot.Bytes.Commands
import EchoRobot.Bytes.Snapshot
import EchoRobot.App.Screen
import EchoRobot.App.Replay
import EchoRobot.Input.Shipped
import EchoRobot.Servo.Chip
import EchoRobot.Texts.Stats
import EchoRobot.App.Visualizer
import EchoRobot.Session.Timing
import EchoRobot.Session.Rhythm
