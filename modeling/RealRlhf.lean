import RealRlhf.Base.Datapack
import RealRlhf.Base.Ffd
import RealRlhf.Base.Allocate
import RealRlhf.Base.Lists
import RealRlhf.Pipeline.Schedule
import RealRlhf.Pipeline.Inference
import RealRlhf.Pipeline.Train
import RealRlhf.Pipeline.TrainExchange
import RealRlhf.Pipeline.Generate
import RealRlhf.Pipeline.TensorBuffer
import RealRlhf.Master.Dfg
import RealRlhf.Master.Buffer
import RealRlhf.Master.Scheduler
import RealRlhf.Master.Calls
import RealRlhf.Master.Poll
import RealRlhf.Master.Permits
import RealRlhf.Master.BackPressure
import RealRlhf.Master.Registry
import RealRlhf.Master.Provenance
import RealRlhf.Master.Payloads
import RealRlhf.Master.Handshake
import RealRlhf.Master.HandshakeProgress
import RealRlhf.Master.ParamSync
import RealRlhf.Master.Seqlens
import RealRlhf.Dataset.PackedPaired
import RealRlhf.Scripts.PipeCkpt
import RealRlhf.Ppo.Gae
import RealRlhf.Ppo.Functional
import RealRlhf.Ppo.MemoryEfficient
import RealRlhf.Ppo.Padded
import RealRlhf.Ppo.KlController
